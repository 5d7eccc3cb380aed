import NimbleBrain.Conversation.IndexCache

/- After a refresh each entry of the index describes a file that was there since the refresh began. -/

namespace NimbleBrain.Conversation.IndexCache

open Library Display

/-- A kept scan went over the first lines of its file, if this file is still there. -/
def Fits (kept : KeptScan) (file : StoredFile) : Prop :=
  kept.ino = file.ino → file.line1 = some kept.line1 →
    kept.offset ≤ file.lines.length ∧
      foldHeaderText { conversation := parseMeta kept.line1 } (file.lines.take kept.offset) = some kept.scan

theorem foldHeaderText_append (scan : HeaderScan) (first second : List StoredLine) :
    foldHeaderText scan (first ++ second) = (foldHeaderText scan first).bind (foldHeaderText · second) :=
  List.foldlM_append ..

variable {file : StoredFile} {kept : KeptScan} {scan : HeaderScan} {state : State}

theorem Fits.append (fits : Fits kept file) (lines : List StoredLine) :
    Fits kept { file with lines := file.lines ++ lines } := by
  intro sameIno sameLine
  obtain ⟨within, folded⟩ := fits sameIno sameLine
  dsimp only
  rw [List.take_append_of_le_length within, List.length_append]
  exact ⟨by omega, folded⟩

/-- A resumed read finds what a whole read finds. -/
theorem scanConversationHeader_eq {prior : Option KeptScan} (fits : ∀ kept ∈ prior, Fits kept file) :
    scanConversationHeader prior file = scanFromStart file := by
  rw [scanConversationHeader]
  split
  · next kept resumed =>
    obtain ⟨rfl, resumes⟩ := Option.filter_eq_some_iff.mp resumed
    obtain ⟨sameIno, -, sameLine⟩ : kept.Resumes file := of_decide_eq_true resumes
    obtain ⟨within, folded⟩ := fits kept rfl sameIno sameLine
    have whole : foldHeaderText { conversation := parseMeta kept.line1 } file.lines =
        foldHeaderText kept.scan (file.lines.drop kept.offset) := by
      rw [← List.take_append_drop kept.offset file.lines, foldHeaderText_append, folded,
        List.take_append_drop]
      rfl
    rw [scanFromStart, sameLine]
    dsimp only
    rw [whole, ← sameIno]
  · rfl

/-- The scan of a whole read went over its file. -/
theorem scanFromStart_eq_some (read : scanFromStart file = some (some kept)) :
    kept.ino = file.ino ∧ file.line1 = some kept.line1 ∧ kept.offset = file.lines.length ∧
      foldHeaderText { conversation := parseMeta kept.line1 } file.lines = some kept.scan := by
  rw [scanFromStart] at read
  cases first : file.line1 with
  | none => rw [first] at read; cases read
  | some line1 =>
      rw [first] at read
      obtain ⟨scan, folded, made⟩ := Option.map_eq_some_iff.mp read
      cases made
      exact ⟨rfl, rfl, rfl, folded⟩

theorem scanFromStart_fits (read : scanFromStart file = some (some kept)) :
    Fits kept file := by
  obtain ⟨-, -, length, folded⟩ := scanFromStart_eq_some read
  intro _ _
  rw [length, List.take_length]
  exact ⟨Nat.le_refl _, folded⟩

/-- No line changes what the first line says. -/
theorem foldHeaderLine_conversation (scan : HeaderScan) (event : ConversationEvent) :
    (foldHeaderLine scan event).conversation = scan.conversation := by
  have folded : (foldHeaderEvent scan event).conversation = scan.conversation := by
    cases event <;> simp only [foldHeaderEvent] <;> first | rfl | (split <;> rfl)
  rw [foldHeaderLine]
  split <;> exact folded

theorem foldHeaderText_conversation {last : HeaderScan} {lines : List StoredLine}
    (folded : foldHeaderText scan lines = some last) : last.conversation = scan.conversation := by
  induction lines generalizing scan with
  | nil =>
      cases folded
      rfl
  | cons line rest ih =>
      rw [foldHeaderText, List.foldlM_cons] at folded
      obtain ⟨next, one, folded⟩ := Option.bind_eq_some_iff.mp folded
      rw [ih folded]
      cases line with
      | event event =>
          cases one
          exact foldHeaderLine_conversation scan event
      | malformed =>
          cases one
          rfl
      | withoutUsage => cases one

/-- An entry carries the id of its first line. -/
theorem entryOfScan_id {place : ConversationFileRef} {entry : IndexEntry}
    (made : entryOfScan place scan = some entry) : entry.id = scan.conversation.id := by
  rw [entryOfScan] at made
  split at made
  · cases made
  · cases made
    rfl

/-- What the read under way found of a conversation. -/
def Update.found? (update : Update) (id : String) : Option (Option KeptScan) :=
  update.reading.bind fun read => if read.1 = id then some read.2 else none

def State.found? (state : State) (id : String) : Option (Option KeptScan) :=
  state.updating.bind fun update => update.found? id

/-- The scans that a later read of the conversation may resume. -/
def State.keptScans (state : State) (id : String) : List KeptScan :=
  (state.scans.get? id).toList ++ (state.updating.bind fun update => update.prior.get? id).toList ++
    (state.found? id).join.toList

/-- The conversations that the update still reads. -/
def State.todo (state : State) : List String := (state.updating.map Update.todo).getD []

/-- The conversations that the update has not stored yet. -/
def Update.left (update : Update) : List String := (update.reading.map Prod.fst).toList ++ update.todo

/-- A kept scan tells the new file from the one it read. -/
def Recognised (state : State) (id : String) (file : StoredFile) : Prop :=
  ∀ kept ∈ state.keptScans id, kept.ino ≠ file.ino ∨ file.line1 ≠ some kept.line1

instance (state : State) (id : String) (file : StoredFile) : Decidable (Recognised state id file) :=
  inferInstanceAs (Decidable (∀ kept ∈ state.keptScans id, _))

/-- The next read does not throw by itself. -/
def Reads (state : State) : Prop :=
  ∀ update ∈ state.updating, ∀ id ∈ update.todo.head?, (readHeader state update id none).isSome

instance (state : State) : Decidable (Reads state) :=
  inferInstanceAs (Decidable (∀ update ∈ state.updating, ∀ id ∈ update.todo.head?, _))

/-- A rebuild begins while no caller has yet to go on after its refresh. -/
def Unread (state : State) : Prop :=
  state.updating = none ∧ state.dirty → ∀ call ∈ state.calls.values, call.phase ≠ .done

instance (state : State) : Decidable (Unread state) :=
  inferInstanceAs (Decidable (state.updating = none ∧ state.dirty → _))

/-- No header read fails, and a refresh that is done keeps its answer until its caller goes on. -/
def Steady (state : State) : Action → Prop
  | .create id file => Recognised state id file
  | .readNext fault => fault = none ∧ Reads state
  | .refresh _ | .recheck _ => Unread state
  | _ => True

instance (state : State) : (action : Action) → Decidable (Steady state action)
  | .create id file => inferInstanceAs (Decidable (Recognised state id file))
  | .readNext fault => inferInstanceAs (Decidable (fault = none ∧ Reads state))
  | .refresh _ | .recheck _ => inferInstanceAs (Decidable (Unread state))
  | .append .. | .remove _ | .invalidate _ | .storeNext | .finish | .returns _ => .isTrue trivial

variable (place : String → ConversationFileRef)

section Invariant

/-- What the index says of a conversation once the read under way is stored. -/
def State.shown (state : State) (id : String) : Option IndexEntry :=
  match state.found? id with
  | some found => found.bind fun kept => entryOfScan (place id) kept.scan
  | none => state.entries.get? id

/-- The conversation will be read. -/
def State.Awaits (state : State) (id : String) : Prop :=
  state.dirty = true ∨ id ∈ state.pending ∨ id ∈ state.todo

/-- The entry describes a file that was there at a moment since the start. -/
def State.FreshSince (state : State) (start : Nat) (id : String) (entry : Option IndexEntry) : Prop :=
  ∃ disk ∈ state.history.drop start, entry = describe (place id) (disk.get? id)

/-- What a call may rely on, by its phase. -/
def State.Promises (state : State) (call : Call) (id : String) : Prop :=
  match call.phase with
  | .checking | .joined => state.Awaits id ∨ state.FreshSince place call.start id (state.shown place id)
  | .owner => id ∈ state.todo ∨ state.FreshSince place call.start id (state.shown place id)
  | .done =>
      state.FreshSince place call.start id (state.shown place id) ∧
        state.FreshSince place call.start id (state.entries.get? id)

/-- The call began on a disk there was, and it relies on what was signalled before. -/
def State.Serves (state : State) (call : Call) : Prop :=
  call.start < state.history.length ∧ ∀ id ∉ call.unsignalled, state.Promises place call id

structure Sound (state : State) : Prop where
  current : state.history.getLast? = some state.disk
  named : ∀ (id : String) (file : StoredFile), state.disk.get? id = some file → Named id file
  fits : ∀ (id : String) (file : StoredFile), state.disk.get? id = some file →
    ∀ kept ∈ state.keptScans id, Fits kept file
  apart : ∀ update ∈ state.updating, update.rebuild = true →
    update.left.Nodup ∧ ∀ id ∈ update.left, state.entries.get? id = none
  readNamed : ∀ (id : String) (kept : KeptScan), state.found? id = some (some kept) →
    kept.scan.conversation.id = id
  settled : ∀ id ∉ state.unsignalled,
    state.Awaits id ∨ state.shown place id = describe (place id) (state.disk.get? id)
  served : ∀ (number : Nat) (call : Call), state.calls.get? number = some call → state.Serves place call

variable {place} {state : State}

variable {id : String}

theorem Sound.fresh_of_eq (sound : Sound place state) {start : Nat} (began : start < state.history.length)
    {entry : Option IndexEntry} (same : entry = describe (place id) (state.disk.get? id)) :
    state.FreshSince place start id entry := by
  refine ⟨state.disk, ?_, same⟩
  apply List.mem_of_getLast?
  rw [List.getLast?_drop, if_neg (Nat.not_le.mpr began)]
  exact sound.current

/-- A promise is kept when what is shown, awaited and seen is kept. -/
theorem State.Promises.keep {after : State} {call : Call} (promised : state.Promises place call id)
    (history : ∀ disk ∈ state.history.drop call.start, disk ∈ after.history.drop call.start)
    (awaits : state.Awaits id → after.Awaits id) (todo : id ∈ state.todo → id ∈ after.todo)
    (shown : after.shown place id = state.shown place id) (entries : after.entries.get? id = state.entries.get? id) :
    after.Promises place call id := by
  have fresh (entry : Option IndexEntry) :
      state.FreshSince place call.start id entry → after.FreshSince place call.start id entry := by
    intro ⟨disk, seen, same⟩
    exact ⟨disk, history disk seen, same⟩
  unfold State.Promises at promised ⊢
  rw [shown, entries]
  split at promised
  · exact promised.imp awaits (fresh _)
  · exact promised.imp awaits (fresh _)
  · exact promised.imp todo (fresh _)
  · exact ⟨fresh _ promised.1, fresh _ promised.2⟩

end Invariant

section Files

theorem mem_drop_append {disks : List Disk} {start : Nat} {disk last : Disk} (seen : disk ∈ disks.drop start) :
    disk ∈ (disks ++ [last]).drop start := by
  rw [List.drop_append]
  exact List.mem_append_left _ seen

variable {place} {state : State}

theorem Sound.changeDisk (sound : Sound place state) (id : String) (disk : Disk)
    (others : ∀ other, other ≠ id → disk.get? other = state.disk.get? other)
    (named : ∀ file, disk.get? id = some file → Named id file)
    (fits : ∀ file, disk.get? id = some file → ∀ kept ∈ state.keptScans id, Fits kept file) :
    Sound place (state.changeDisk id disk) where
  current := List.getLast?_concat
  named other file found := by
    by_cases same : other = id
    · subst same
      exact named file found
    · exact sound.named other file (others other same ▸ found)
  fits other file found := by
    by_cases same : other = id
    · subst same
      exact fits file found
    · exact sound.fits other file (others other same ▸ found)
  apart := sound.apart
  readNamed := sound.readNamed
  settled other signalled := by
    have outside : other ≠ id ∧ other ∉ state.unsignalled := by
      simpa [State.changeDisk, List.mem_insert_iff, not_or] using signalled
    have agree : describe (place other) (disk.get? other) = describe (place other) (state.disk.get? other) := by
      rw [others other outside.1]
    exact (sound.settled other outside.2).imp (fun waits => waits) fun same => same.trans agree.symm
  served number call found := by
    obtain ⟨began, promised⟩ := sound.served number call found
    constructor
    · change call.start < (state.history ++ [disk]).length
      rw [List.length_append]
      omega
    · intro other signalled
      apply (promised other signalled).keep
      · exact fun disk => mem_drop_append
      · exact fun waits => waits
      · exact fun listed => listed
      · rfl
      · rfl

variable {after : State} {id : String}

theorem Sound.createFile (sound : Sound place state) {file : StoredFile} (recognised : Recognised state id file)
    (stepped : createFile id file state = some after) :
    Sound place after := by
  rw [IndexCache.createFile] at stepped
  split at stepped
  · next name =>
    cases stepped
    have only (found : StoredFile) : (state.disk.set id file).get? id = some found → found = file := by
      rw [OrderedMap.get?_set_self]
      exact fun same => (Option.some.inj same).symm
    apply sound.changeDisk
    · intro other different
      rw [OrderedMap.get?_set, if_neg different]
    · intro found here
      exact only found here ▸ name
    · intro found here kept keeps sameIno sameLine
      rw [only found here] at sameIno sameLine
      exact absurd sameLine ((recognised kept keeps).resolve_left (fun other => other sameIno))
  · cases stepped

theorem Sound.appendFile (sound : Sound place state) {lines : List StoredLine}
    (stepped : appendFile id lines state = some after) : Sound place after := by
  obtain ⟨file, here, rfl⟩ := Option.map_eq_some_iff.mp stepped
  have only (found : StoredFile) :
      (state.disk.set id { file with lines := file.lines ++ lines }).get? id = some found →
        found = { file with lines := file.lines ++ lines } := by
    rw [OrderedMap.get?_set_self]
    exact fun same => (Option.some.inj same).symm
  apply sound.changeDisk
  · intro other different
    rw [OrderedMap.get?_set, if_neg different]
  · intro found there
    rw [only found there]
    exact sound.named id file here
  · intro found there kept keeps
    rw [only found there]
    exact (sound.fits id file here kept keeps).append lines

theorem Sound.removeFile (sound : Sound place state) (stepped : removeFile id state = some after) :
    Sound place after := by
  obtain ⟨file, here, rfl⟩ := Option.map_eq_some_iff.mp stepped
  have gone (found : StoredFile) : (state.disk.delete id).get? id ≠ some found := by
    rw [OrderedMap.get?_delete, if_pos rfl]
    exact Option.some_ne_none found ∘ Eq.symm
  apply sound.changeDisk
  · intro other different
    rw [OrderedMap.get?_delete, if_neg different]
  · exact fun found there => absurd there (gone found)
  · exact fun found there => absurd there (gone found)

theorem Sound.invalidate (sound : Sound place state) (change : Option String) :
    Sound place (invalidate change state) := by
  have awaits (id : String) (waits : state.Awaits id) : (IndexCache.invalidate change state).Awaits id := by
    cases change with
    | none => exact .inl rfl
    | some named =>
        refine waits.imp_right (Or.imp_left fun pending => ?_)
        change id ∈ if named ∈ state.pending then state.pending else state.pending ++ [named]
        split
        · exact pending
        · exact List.mem_append_left _ pending
  have served (number : Nat) (call : Call) (found : state.calls.get? number = some call) :
      (IndexCache.invalidate change state).Serves place call := by
    obtain ⟨began, promised⟩ := sound.served number call found
    cases change <;>
      exact ⟨began, fun id signalled =>
        (promised id signalled).keep (fun _ seen => seen) (awaits id) (fun waits => waits) rfl rfl⟩
  cases change with
  | none =>
      exact
        { sound with
          settled := fun id _ => .inl (.inl rfl)
          served := served }
  | some named =>
      refine { sound with settled := fun id signalled => ?_, served := served }
      by_cases equal : id = named
      · subst equal
        refine .inl (.inr (.inl ?_))
        change id ∈ if id ∈ state.pending then state.pending else state.pending ++ [id]
        split
        · assumption
        · exact List.mem_append_right _ (List.mem_singleton_self id)
      · have before : id ∉ state.unsignalled := fun listed =>
          signalled (List.mem_filter.mpr ⟨listed, by simpa using equal⟩)
        exact (sound.settled id before).imp_left (awaits id)

end Files

section Calls

variable {place} {state : State}

theorem Sound.setPhase (sound : Sound place state) (number : Nat) (call : Call) (phase : Phase)
    (serves : state.Serves place { call with phase }) : Sound place (state.setPhase number call phase) where
  current := sound.current
  named := sound.named
  fits := sound.fits
  apart := sound.apart
  readNamed := sound.readNamed
  settled := sound.settled
  served other found here := by
    change (state.calls.set number { call with phase }).get? other = some found at here
    rw [OrderedMap.get?_set] at here
    split at here
    · cases here
      exact serves
    · exact sound.served other found here

/-- Once a rebuild began, a conversation is read again or has no file. -/
theorem startBuild_shown (place : String → ConversationFileRef) (state : State) (id : String) :
    id ∈ (startBuild state).todo ∨ (startBuild state).shown place id = describe (place id) (state.disk.get? id) := by
  cases found : state.disk.get? id with
  | none => exact .inr rfl
  | some file => exact .inl (List.mem_map_of_mem (OrderedMap.get?_eq_some_iff.mp found))

theorem Sound.startBuild (sound : Sound place state) (unread : ∀ call ∈ state.calls.values, call.phase ≠ .done) :
    Sound place (startBuild state) := by
  have shown (id : String) := startBuild_shown place state id
  refine
    { current := sound.current, named := sound.named, fits := ?_, apart := ?_, readNamed := ?_, settled := ?_,
      served := ?_ }
  · intro id file found kept keeps
    apply sound.fits id file found kept
    have before : kept ∈ (state.scans.get? id).toList := by
      simpa [State.keptScans, State.found?, Update.found?, IndexCache.startBuild] using keeps
    exact List.mem_append_left _ (List.mem_append_left _ before)
  · rintro update ⟨⟩ -
    exact ⟨state.disk.distinct, fun id _ => rfl⟩
  · intro id kept read
    cases read
  · exact fun id _ => (shown id).imp_left fun listed => .inr (.inr listed)
  · intro number call found
    obtain ⟨began, promised⟩ := sound.served number call found
    refine ⟨began, fun id signalled => ?_⟩
    have fresh := (shown id).imp_right (sound.fresh_of_eq began)
    have waiting : call.phase ≠ .done :=
      unread call (OrderedMap.mem_values.mpr ⟨number, OrderedMap.get?_eq_some_iff.mp found⟩)
    unfold State.Promises
    split
    · exact fresh.imp_left fun listed => .inr (.inr listed)
    · exact fresh.imp_left fun listed => .inr (.inr listed)
    · exact fresh
    · next done => exact absurd done waiting

/-- What waits for an idle index that no signal left whole is listed. -/
theorem awaits_idle {id : String} (idle : state.updating = none) (clean : ¬ state.dirty = true)
    (waits : state.Awaits id) : id ∈ state.pending := by
  rcases waits with dirty | pending | listed
  · exact absurd dirty clean
  · exact pending
  · rw [State.todo, idle] at listed
    exact (List.not_mem_nil listed).elim

theorem shown_idle {id : String} (idle : state.updating = none) :
    state.shown place id = state.entries.get? id := by
  rw [State.shown, State.found?, idle]
  rfl

theorem Sound.startApply (sound : Sound place state) (idle : state.updating = none) (clean : ¬ state.dirty = true) :
    Sound place (startApply state) := by
  have shown (id : String) : (IndexCache.startApply state).shown place id = state.shown place id := by
    rw [shown_idle idle]
    rfl
  have awaits (id : String) (waits : state.Awaits id) : id ∈ (IndexCache.startApply state).todo :=
    awaits_idle idle clean waits
  refine
    { current := sound.current, named := sound.named, fits := ?_, apart := ?_, readNamed := ?_, settled := ?_,
      served := ?_ }
  · intro id file found kept keeps
    apply sound.fits id file found kept
    have before : kept ∈ (state.scans.get? id).toList := by
      simpa [State.keptScans, State.found?, Update.found?, IndexCache.startApply] using keeps
    exact List.mem_append_left _ (List.mem_append_left _ before)
  · rintro update ⟨⟩ rebuild
    cases rebuild
  · intro id kept read
    cases read
  · intro id signalled
    rw [shown]
    exact (sound.settled id signalled).imp_left fun waits => .inr (.inr (awaits id waits))
  · intro number call found
    obtain ⟨began, promised⟩ := sound.served number call found
    refine ⟨began, fun id signalled => (promised id signalled).keep (fun _ seen => seen) ?_ ?_ (shown id) rfl⟩
    · exact fun waits => .inr (.inr (awaits id waits))
    · exact fun listed => awaits id (.inr (.inr listed))

variable {number : Nat} {after : State}

/-- A call that looks again keeps what it relies on. -/
theorem Sound.look (sound : Sound place state) {call : Call} (checking : call.phase = .checking)
    (serves : state.Serves place call) (unread : Unread state) : Sound place (look number call state) := by
  obtain ⟨began, promised⟩ := serves
  have waits (id : String) (signalled : id ∉ call.unsignalled) :
      state.Awaits id ∨ state.FreshSince place call.start id (state.shown place id) := by
    have promise := promised id signalled
    rwa [State.Promises, checking] at promise
  rw [IndexCache.look]
  split
  · exact sound.setPhase number call .joined ⟨began, waits⟩
  · next idle =>
    rw [Option.not_isSome_iff_eq_none] at idle
    split
    · next dirty =>
      apply (sound.startBuild (unread ⟨idle, dirty⟩)).setPhase
      exact ⟨began, fun id _ => (startBuild_shown place state id).imp_right (sound.fresh_of_eq began)⟩
    · next clean =>
      split
      · next nothing =>
        apply sound.setPhase
        refine ⟨began, fun id signalled => ?_⟩
        have fresh : state.FreshSince place call.start id (state.shown place id) := by
          apply (waits id signalled).resolve_left
          intro awaited
          have listed := awaits_idle idle clean awaited
          rw [nothing] at listed
          exact List.not_mem_nil listed
        exact ⟨fresh, @shown_idle place _ _ idle ▸ fresh⟩
      · apply (sound.startApply idle clean).setPhase
        refine ⟨began, fun id signalled => ?_⟩
        have shown : (IndexCache.startApply state).shown place id = state.shown place id := by
          rw [shown_idle idle]
          rfl
        rw [State.Promises]
        dsimp only
        rw [shown]
        exact (waits id signalled).imp_left (awaits_idle idle clean)

theorem Sound.refresh (sound : Sound place state) (unread : Unread state)
    (stepped : refresh number state = some after) : Sound place after := by
  rw [IndexCache.refresh] at stepped
  split at stepped
  · cases stepped
  · cases stepped
    have began : state.history.length - 1 < state.history.length := by
      have present := sound.current
      cases listed : state.history with
      | nil => rw [listed] at present; cases present
      | cons first rest => exact Nat.lt_succ_self rest.length
    apply sound.look rfl ?_ unread
    exact ⟨began, fun id signalled => (sound.settled id signalled).imp_right (sound.fresh_of_eq began)⟩

theorem Sound.recheck (sound : Sound place state) (unread : Unread state)
    (stepped : recheck number state = some after) : Sound place after := by
  rw [IndexCache.recheck] at stepped
  split at stepped
  · next found =>
    cases stepped
    exact sound.look rfl (sound.served number _ found) unread
  · cases stepped

theorem Sound.returns (sound : Sound place state) (stepped : returns number state = some after) :
    Sound place after := by
  rw [IndexCache.returns] at stepped
  split at stepped
  · cases stepped
    refine { sound with served := fun other call here => ?_ }
    change (state.calls.delete number).get? other = some call at here
    rw [OrderedMap.get?_delete] at here
    split at here
    · cases here
    · exact sound.served other call here
  · cases stepped

end Calls

section Updates

variable {place} {state : State}

variable {found : Option KeptScan} {id : String} {after : State} {rebuild : Bool}

/-- The read of a file says what a whole read says. -/
theorem Sound.readHeader (sound : Sound place state) {update : Update} (updating : state.updating = some update)
    (read : readHeader state update id none = some found) :
    (found.bind fun kept => entryOfScan (place id) kept.scan) = describe (place id) (state.disk.get? id) ∧
      ∀ kept, found = some kept →
        kept.scan.conversation.id = id ∧ ∀ file, state.disk.get? id = some file → Fits kept file := by
  unfold IndexCache.readHeader at read
  cases here : state.disk.get? id with
  | none =>
      rw [here] at read
      cases read
      exact ⟨rfl, fun kept none => nomatch none⟩
  | some file =>
      rw [here] at read
      have fits : ∀ kept ∈ state.priorOf update id, Fits kept file := by
        intro kept prior
        apply sound.fits id file here kept
        rw [State.priorOf] at prior
        split at prior
        · have listed : kept ∈ (state.updating.bind fun update => update.prior.get? id).toList := by
            rw [updating]
            exact Option.mem_toList.mpr prior
          exact List.mem_append_left _ (List.mem_append_right _ listed)
        · exact List.mem_append_left _ (List.mem_append_left _ (Option.mem_toList.mpr prior))
      have whole : scanFromStart file = some found := scanConversationHeader_eq fits ▸ read
      constructor
      · rw [describe, Option.bind_some, whole]
        rfl
      · intro kept same
        subst same
        obtain ⟨-, first, -, folded⟩ := scanFromStart_eq_some whole
        refine ⟨?_, ?_⟩
        · rw [foldHeaderText_conversation folded]
          exact sound.named id file here kept.line1 first
        · intro other there
          cases there
          exact scanFromStart_fits whole

theorem Sound.readNext (sound : Sound place state) (reads : Reads state)
    (stepped : readNext none state = some after) : Sound place after := by
  rw [IndexCache.readNext] at stepped
  split at stepped
  · next rebuild prior id rest updating =>
    have succeeds := reads _ updating id rfl
    obtain ⟨found, read⟩ := Option.isSome_iff_exists.mp succeeds
    rw [read] at stepped
    cases stepped
    obtain ⟨told, names⟩ := sound.readHeader updating read
    have before (other : String) : state.found? other = none := by
      rw [State.found?, updating]
      rfl
    have foundAfter (other : String) :
        ({ state with updating := some { rebuild, prior, todo := rest, reading := some (id, found) } } : State).found?
          other = if id = other then some found else none := rfl
    have shown (other : String) :
        ({ state with updating := some { rebuild, prior, todo := rest, reading := some (id, found) } } : State).shown
          place other = if id = other then describe (place other) (state.disk.get? other)
            else state.shown place other := by
      rw [State.shown, State.shown, foundAfter, before]
      split_ifs with same
      · subst same
        exact told
      · rfl
    have listed (other : String) (different : id ≠ other) (waits : other ∈ state.todo) : other ∈ rest := by
      rw [State.todo, updating] at waits
      exact (List.mem_cons.mp waits).resolve_left (Ne.symm different)
    have awaits (other : String) (different : id ≠ other) (waits : state.Awaits other) :
        ({ state with updating := some { rebuild, prior, todo := rest, reading := some (id, found) } } : State).Awaits
          other := waits.imp_right fun waits => waits.imp_right (listed other different)
    refine
      { current := sound.current, named := sound.named, fits := ?_, apart := ?_, readNamed := ?_, settled := ?_,
        served := ?_ }
    · intro other file here kept keeps
      rcases List.mem_append.mp keeps with earlier | later
      · apply sound.fits other file here kept
        apply List.mem_append_left
        rw [updating]
        exact earlier
      · rw [foundAfter] at later
        split at later
        · next same =>
          subst same
          exact (names kept (Option.mem_toList.mp later)).2 file here
        · cases later
    · rintro update ⟨⟩ rebuilds
      exact sound.apart { rebuild, prior, todo := id :: rest } updating rebuilds
    · intro other kept there
      rw [foundAfter] at there
      split at there
      · next same =>
        subst same
        exact (names kept (Option.some.inj there)).1
      · cases there
    · intro other signalled
      rw [shown]
      split_ifs with same
      · exact .inr rfl
      · exact (sound.settled other signalled).imp_left (awaits other same)
    · intro number call here
      obtain ⟨began, promised⟩ := sound.served number call here
      refine ⟨began, fun other signalled => ?_⟩
      by_cases same : id = other
      · have fresh := sound.fresh_of_eq began ((shown other).trans (if_pos same))
        have promise := promised other signalled
        unfold State.Promises at promise ⊢
        split at promise
        · exact .inr fresh
        · exact .inr fresh
        · exact .inr fresh
        · exact ⟨fresh, promise.2⟩
      · apply (promised other signalled).keep
        · exact fun _ seen => seen
        · exact awaits other same
        · exact listed other same
        · rw [shown, if_neg same]
        · rfl
  · cases stepped

theorem keepScan_get? (id : String) (found : Option KeptScan) (scans : OrderedMap String KeptScan) (other : String) :
    (keepScan id found scans).get? other = if other = id then found else scans.get? other := by
  cases found with
  | none => exact OrderedMap.get?_delete id other
  | some kept => exact OrderedMap.get?_set id other kept

/-- What was read is entered under its own name, and no other entry changes. -/
theorem enterFound_get? (place : String → ConversationFileRef) {entries : OrderedMap String IndexEntry}
    (named : ∀ kept ∈ found, kept.scan.conversation.id = id) (absent : rebuild = true → entries.get? id = none)
    (other : String) :
    (enterFound place rebuild id found entries).get? other =
      if other = id then found.bind fun kept => entryOfScan (place id) kept.scan else entries.get? other := by
  rw [enterFound]
  split
  · next entry made =>
    obtain ⟨kept, rfl, entered⟩ := Option.bind_eq_some_iff.mp made
    rw [made, (entryOfScan_id entered).trans (named kept rfl)]
    exact OrderedMap.get?_set id other entry
  · next made =>
    rw [made]
    split
    · next rebuilds =>
      split
      · next same => rw [same, absent rebuilds]
      · rfl
    · exact OrderedMap.get?_delete id other

/-- A stored header is what was shown before. -/
theorem Sound.indexFile_entries (sound : Sound place state) {prior : OrderedMap String KeptScan}
    {todo : List String} (updating : state.updating = some { rebuild, prior, todo, reading := some (id, found) })
    (other : String) :
    (enterFound place rebuild id found state.entries).get? other = state.shown place other := by
  have foundBefore (other : String) : state.found? other = if id = other then some found else none := by
    rw [State.found?, updating]
    rfl
  rw [enterFound_get?]
  · rw [State.shown, foundBefore]
    by_cases same : other = id
    · rw [if_pos same, if_pos same.symm, same]
    · rw [if_neg same, if_neg (Ne.symm same)]
  · intro kept same
    apply sound.readNamed id kept
    rw [foundBefore, if_pos rfl, same]
  · exact fun rebuilds => (sound.apart _ updating rebuilds).2 id (List.mem_cons_self ..)

theorem Sound.storeNext (sound : Sound place state) (stepped : storeNext place state = some after) :
    Sound place after := by
  rw [IndexCache.storeNext] at stepped
  split at stepped
  · next rebuild prior todo id found updating =>
    cases stepped
    have entries (other : String) :
        (indexFile place { rebuild, prior, todo } id found state).entries.get? other = state.shown place other :=
      sound.indexFile_entries updating other
    have shown (other : String) :
        (indexFile place { rebuild, prior, todo } id found state).shown place other = state.shown place other :=
      entries other
    have listed (other : String) (waits : other ∈ state.todo) :
        other ∈ (indexFile place { rebuild, prior, todo } id found state).todo := by
      rw [State.todo, updating] at waits
      exact waits
    have awaits (other : String) (waits : state.Awaits other) :
        (indexFile place { rebuild, prior, todo } id found state).Awaits other :=
      waits.imp_right fun waits => waits.imp_right (listed other)
    refine
      { current := sound.current, named := sound.named, fits := ?_, apart := ?_, readNamed := ?_, settled := ?_,
        served := ?_ }
    · intro other file here kept keeps
      apply sound.fits other file here kept
      rw [State.keptScans, State.found?, updating]
      change kept ∈ ((keepScan id found state.scans).get? other).toList ++ (prior.get? other).toList ++ [] at keeps
      change kept ∈ (state.scans.get? other).toList ++ (prior.get? other).toList ++
        (if id = other then some found else none).join.toList
      rw [keepScan_get?, List.append_nil] at keeps
      by_cases same : other = id
      · rw [if_pos same] at keeps
        rw [if_pos same.symm]
        rcases List.mem_append.mp keeps with stored | earlier
        · exact List.mem_append_right _ stored
        · exact List.mem_append_left _ (List.mem_append_right _ earlier)
      · rw [if_neg same] at keeps
        exact List.mem_append_left _ keeps
    · rintro update ⟨⟩ rebuilds
      obtain ⟨distinct, absent⟩ := sound.apart _ updating rebuilds
      obtain ⟨apart, distinct⟩ := List.nodup_cons.mp distinct
      refine ⟨distinct, fun other later => ?_⟩
      have different : id ≠ other := fun same => apart (same ▸ later)
      rw [entries, State.shown, State.found?, updating]
      change (match if id = other then some found else none with
        | some found => found.bind fun kept => entryOfScan (place other) kept.scan
        | none => state.entries.get? other) = none
      rw [if_neg different]
      exact absent other (List.mem_cons_of_mem _ later)
    · intro other kept there
      cases there
    · intro other signalled
      rw [shown]
      exact (sound.settled other signalled).imp_left (awaits other)
    · intro number call here
      obtain ⟨began, promised⟩ := sound.served number call here
      refine ⟨began, fun other signalled => ?_⟩
      have promise := promised other signalled
      unfold State.Promises at promise ⊢
      rw [shown, entries]
      split at promise
      · exact promise.imp_left (awaits other)
      · exact promise.imp_left (awaits other)
      · exact promise.imp_left (listed other)
      · exact ⟨promise.1, promise.1⟩
  · cases stepped

theorem Sound.finish (sound : Sound place state) (stepped : finish state = some after) :
    Sound place after := by
  rw [IndexCache.finish] at stepped
  split at stepped
  · next rebuild prior updating =>
    cases stepped
    have shown (id : String) : state.shown place id = state.entries.get? id := by
      rw [State.shown, State.found?, updating]
      rfl
    have nothing (id : String) : id ∉ state.todo := by
      rw [State.todo, updating]
      exact List.not_mem_nil
    have awaits (id : String) (waits : state.Awaits id) : state.dirty = true ∨ id ∈ state.pending :=
      waits.imp_right fun waits => waits.resolve_right (nothing id)
    refine
      { current := sound.current, named := sound.named, fits := ?_, apart := ?_, readNamed := ?_, settled := ?_,
        served := ?_ }
    · intro id file here kept keeps
      apply sound.fits id file here kept
      have before : kept ∈ (state.scans.get? id).toList := by simpa [State.keptScans, State.found?] using keeps
      exact List.mem_append_left _ (List.mem_append_left _ before)
    · intro update none
      cases none
    · intro id kept none
      cases none
    · intro id signalled
      rcases sound.settled id signalled with waits | same
      · exact .inl ((awaits id waits).imp_right .inl)
      · exact .inr ((shown id).symm.trans same)
    · intro number call here
      change (state.calls.filterMap _).get? number = some call at here
      rw [OrderedMap.get?_filterMap] at here
      obtain ⟨earlier, there, made⟩ := Option.bind_eq_some_iff.mp here
      cases made
      obtain ⟨began, promised⟩ := sound.served number earlier there
      refine ⟨began, fun id signalled => ?_⟩
      have promise := promised id signalled
      rw [State.Promises] at promise ⊢
      dsimp only
      rw [shown] at promise
      cases phase : earlier.phase with
      | checking =>
          rw [phase] at promise
          exact promise.imp_left fun waits => (awaits id waits).imp_right .inl
      | joined =>
          rw [phase] at promise
          exact promise.imp_left fun waits => (awaits id waits).imp_right .inl
      | owner =>
          rw [phase] at promise
          have fresh := promise.resolve_left (nothing id)
          exact ⟨fresh, fresh⟩
      | done =>
          rw [phase] at promise
          exact promise
  · cases stepped

end Updates

theorem Sound.built {disk : Disk}
    (reads : ∀ id file, disk.get? id = some file → Named id file ∧ (scanFromStart file).isSome) :
    Sound place (built place disk) where
  current := rfl
  named id file found := (reads id file found).1
  fits id file found kept keeps := by
    have stored : kept ∈ (disk.filterMap fun _ file => (scanFromStart file).join).get? id := by
      simpa [State.keptScans, State.found?, IndexCache.built] using keeps
    change disk.get? id = some file at found
    rw [OrderedMap.get?_filterMap, found] at stored
    exact scanFromStart_fits (Option.join_eq_some_iff.mp stored)
  apart update none := by cases none
  readNamed id kept none := by cases none
  settled id _ := by
    right
    change (disk.filterMap fun id file => describe (place id) (some file)).get? id = describe (place id) (disk.get? id)
    rw [OrderedMap.get?_filterMap]
    cases disk.get? id <;> rfl
  served number call none := by cases none

theorem Sound.step {after : State} (sound : Sound place state) {action : Action} (steady : Steady state action)
    (stepped : step place state action = some after) : Sound place after := by
  cases action with
  | create id file => exact sound.createFile steady stepped
  | append id lines => exact sound.appendFile stepped
  | remove id => exact sound.removeFile stepped
  | invalidate change =>
      cases stepped
      exact sound.invalidate change
  | refresh number => exact sound.refresh steady stepped
  | recheck number => exact sound.recheck steady stepped
  | readNext fault =>
      obtain ⟨rfl, reads⟩ := steady
      exact sound.readNext reads stepped
  | storeNext => exact sound.storeNext stepped
  | finish => exact sound.finish stepped
  | returns number => exact sound.returns stepped

theorem sound_of_reached (reached : (IndexSystem place).ReachedBy Steady state) :
    Sound place state := by
  apply reached.invariant (Sound place)
  · rintro _ ⟨disk, reads, rfl⟩
    exact Sound.built place reads
  · exact fun before action after sound steady stepped => sound.step place steady stepped

/-- When a refresh is done, the entry of each conversation whose changes were signalled before it began describes
its file at a moment since then, and a conversation that was readable all the time is listed. -/
def NeverStale (state : State) : Prop :=
  ∀ (number : Nat) (call : Call), state.calls.get? number = some call → call.phase = .done →
    ∀ id ∉ call.unsignalled,
      (∃ disk ∈ state.history.drop call.start, state.entries.get? id = describe (place id) (disk.get? id)) ∧
        ((∀ disk ∈ state.history.drop call.start, (describe (place id) (disk.get? id)).isSome) →
          (state.entries.get? id).isSome)

theorem index_never_stale {state : State} (reached : (IndexSystem place).ReachedBy Steady state) :
    NeverStale place state := by
  intro number call found done id signalled
  have promise := ((sound_of_reached place reached).served number call found).2 id signalled
  rw [State.Promises, done] at promise
  obtain ⟨disk, seen, same⟩ := promise.2
  exact ⟨⟨disk, seen, same⟩, fun readable => same ▸ readable disk seen⟩

/-- The place of a conversation in the examples. -/
def onlyPlace (id : String) : ConversationFileRef := ⟨id ++ ".jsonl", "ws_main"⟩

def newFile (id : String) (ino : Nat) : StoredFile where
  ino
  line1 := some { id, createdAt := "t0", ownerId := "usr_1", model := "m" }
  lines := []

theorem built_empty : (IndexSystem onlyPlace).initial (built onlyPlace ∅) := by
  refine ⟨∅, fun id file found => ?_, rfl⟩
  cases found

/-- Two conversations come and are signalled. -/
def newConversations : List Action :=
  [.create "a" (newFile "a" 1), .invalidate (some "a"), .create "b" (newFile "b" 2), .invalidate (some "b")]

def bothRead : List Action :=
  newConversations ++ [.refresh 0, .readNext none, .storeNext, .readNext none, .storeNext, .finish]

theorem index_never_stale_new :
    ∃ state ∈ (IndexSystem onlyPlace).run (built onlyPlace ∅) bothRead,
      (state.entries.get? "b").isSome ∧ NeverStale onlyPlace state := by
  have ran : ((IndexSystem onlyPlace).run (built onlyPlace ∅) bothRead).any
      (fun state => (state.entries.get? "b").isSome) = true := by decide +kernel
  obtain ⟨state, ran, listed⟩ := Option.any_eq_true .. |>.mp ran
  have meets : (IndexSystem onlyPlace).Meets Steady (built onlyPlace ∅) bothRead := by decide +kernel
  exact ⟨state, ran, listed, index_never_stale onlyPlace ((System.ReachedBy.start _ built_empty).run meets ran)⟩

/-- A read that throws loses the change after it, and the next refresh finds nothing to do. -/
def readThrows : List Action := newConversations ++ [.refresh 0, .readNext (some .throws), .refresh 1]

theorem index_stale_after_throw :
    ¬ ∀ state, (IndexSystem onlyPlace).Reachable state → NeverStale onlyPlace state := by
  intro all
  have ran : ((IndexSystem onlyPlace).run (built onlyPlace ∅) readThrows).any (fun state =>
      (state.calls.get? 1).any (fun call => decide (call.phase = .done) && decide ("b" ∉ call.unsignalled) &&
        (state.history.drop call.start).all fun disk => (describe (onlyPlace "b") (disk.get? "b")).isSome) &&
      !(state.entries.get? "b").isSome) = true := by decide +kernel
  obtain ⟨state, ran, holds⟩ := Option.any_eq_true .. |>.mp ran
  rw [Bool.and_eq_true] at holds
  obtain ⟨called, missing⟩ := holds
  obtain ⟨call, found, holds⟩ := Option.any_eq_true .. |>.mp called
  simp only [Bool.and_eq_true, decide_eq_true_eq, List.all_eq_true] at holds
  obtain ⟨⟨done, signalled⟩, readable⟩ := holds
  have reachable := System.Reachable.run (System.ReachedBy.start _ built_empty) ran
  have present := (all state reachable 1 call found done "b" signalled).2 readable
  rw [present] at missing
  cases missing

-- A rebuild that another call starts empties the index under a refresh that is done.
example :
    ((IndexSystem onlyPlace).run (built onlyPlace ∅)
      (newConversations ++
        [.refresh 0, .refresh 1, .readNext none, .storeNext, .readNext none, .storeNext, .invalidate none, .finish,
          .recheck 1])).any (fun state =>
      (state.calls.get? 0).any (fun call => decide (call.phase = .done)) && !(state.entries.get? "b").isSome) := by
  decide +kernel

end NimbleBrain.Conversation.IndexCache
