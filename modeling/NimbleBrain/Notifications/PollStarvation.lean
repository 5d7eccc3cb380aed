import Mathlib.Data.Prod.Lex
import Mathlib.Data.List.Lex
import NimbleBrain.Notifications.PollRotation

/- The rotation starves no source exactly when the order it sweeps in is the order it resumes by. -/

namespace NimbleBrain.Notifications

open Library

variable {locale : LinearOrder Utf16} {perMinute : Nat}

variable {sorted sources targets : List Utf16}

theorem groupOrder_perm (locale : LinearOrder Utf16) (targets : List Utf16) : (groupOrder locale targets).Perm targets :=
  @List.perm_insertionSort Utf16 locale.le locale.toDecidableLE targets

theorem groupOrder_pairwise (targets : List Utf16) : (groupOrder locale targets).Pairwise locale.le := by
  let _ := locale
  exact List.pairwise_insertionSort (r := locale.le) targets

theorem groupOrder_eq (same : targets.Perm sources) : groupOrder locale targets = groupOrder locale sources := by
  refine @List.Perm.eq_of_pairwise _ locale.le _ _ (fun first second _ _ before after => ?_)
    (groupOrder_pairwise targets) (groupOrder_pairwise sources)
    (((groupOrder_perm locale targets).trans same).trans (groupOrder_perm locale sources).symm)
  exact locale.le_antisymm first second before after

variable {index : Nat}

/-- A name that resumes a list in code-unit order begins the rotation. -/
theorem rotate_resume (ordered : sorted.Pairwise (· < ·)) {turned : List Utf16} {shift : Nat}
    (rotated : turned = sorted.rotate shift) (within : index < turned.length) :
    rotate sorted turned[index]? = turned.rotate index := by
  subst rotated
  rw [List.length_rotate] at within
  have place : (index + shift) % sorted.length < sorted.length := Nat.mod_lt _ (Nat.zero_lt_of_lt within)
  have found : (sorted.rotate shift)[index]? = some (sorted[(index + shift) % sorted.length]) := by
    rw [List.getElem?_rotate within, List.getElem?_eq_getElem place]
  have least : sorted.findIdx? (fun target => decide (sorted[(index + shift) % sorted.length] ≤ target)) =
      some ((index + shift) % sorted.length) := by
    rw [List.findIdx?_eq_some_iff_getElem]
    refine ⟨place, by simp, fun earlier before => ?_⟩
    have less : sorted[earlier] < sorted[(index + shift) % sorted.length] :=
      List.pairwise_iff_getElem.mp ordered _ _ _ place before
    simpa using less
  have turn : (sorted.rotate shift).rotate index = sorted.rotate ((index + shift) % sorted.length) := by
    rw [List.rotate_rotate, List.rotate_mod, Nat.add_comm]
  rw [found, turn, rotate, least]
  cases spot : (index + shift) % sorted.length with
  | zero => simp
  | succ before => rw [List.rotate_eq_drop_append_take (by omega)]

/-- Every name is resumed at some rotation of the list. -/
theorem rotate_rotated (sorted : List Utf16) (resumeAt : Option Utf16) :
    ∃ shift, rotate sorted resumeAt = sorted.rotate shift := by
  cases resumeAt with
  | none => exact ⟨0, (List.rotate_zero sorted).symm⟩
  | some resumeAt =>
      cases found : sorted.findIdx? (fun target => decide (resumeAt ≤ target)) with
      | none => exact ⟨0, by simp [rotate, found]⟩
      | some index =>
          cases index with
          | zero => exact ⟨0, by simp [rotate, found]⟩
          | succ index =>
              have within := (List.findIdx?_eq_some_iff_getElem.mp found).1
              exact ⟨index + 1, by simp [rotate, found, List.rotate_eq_drop_append_take within.le]⟩

/-- What a list begins with is in its first part or begins the rest. -/
theorem mem_take_rotate {names : List Utf16} {name : Utf16} {part count : Nat} (nonzero : 0 < part)
    (within : part ≤ names.length) (member : name ∈ names.take (count + 1)) :
    name ∈ names.take part ∨ name ∈ (names.rotate part).take count := by
  rw [List.rotate_eq_drop_append_take within]
  by_cases short : count + 1 ≤ part
  · exact .inl (List.take_subset_take_left names short member)
  · have split : names.take (count + 1) = names.take part ++ (names.drop part).take (count + 1 - part) := by
      rw [← List.take_add, Nat.add_sub_cancel' (by omega)]
    rw [split, List.mem_append] at member
    refine member.imp_right fun later => ?_
    rw [List.take_append]
    exact List.mem_append_left _ (List.take_subset_take_left _ (by omega) later)

variable {turns : Nat → PollTurn}

theorem chainReads_resumeAt (target : Utf16) (reads : Nat → PollRead) (left index : Nat) (poller : Poller) :
    (chainReads perMinute target reads left index poller).1.resumeAt = poller.resumeAt := by
  induction left generalizing index poller with
  | zero => rfl
  | succ left ih =>
      simp only [chainReads]
      split
      · rfl
      · split
        · rfl
        · split
          · rfl
          · exact ih (index + 1) _

variable {poller : Poller}

theorem pollSource_mem (target : Utf16) (reads : Nat → PollRead) (going : poller.stopped = false) :
    target ∈ (pollSource perMinute target reads poller).2 := by
  rw [pollSource, maxChainedReads, chainReads, if_neg (by simp [going])]
  dsimp only
  split
  · exact List.mem_singleton_self target
  · split
    · exact List.mem_singleton_self target
    · exact List.mem_cons_self

/-- A sweep reads a first part of its sources. It covers them all, is stopped, or resumes at the first one left. -/
theorem sweepFrom_reads (targets : List Utf16) (index : Nat) (poller : Poller) :
    ∃ part ≤ targets.length,
      (∀ target ∈ targets.take part, target ∈ (sweepFrom perMinute turns targets index poller).2) ∧
      ((sweepFrom perMinute turns targets index poller).2 ≠ [] → 0 < part) ∧
      ((sweepFrom perMinute turns targets index poller).1.stopped = true ∨ part = targets.length ∨
        part < targets.length ∧ (sweepFrom perMinute turns targets index poller).1.resumeAt = targets[part]?) := by
  induction targets generalizing index poller with
  | nil => exact ⟨0, le_rfl, nofun, fun read => (read rfl).elim, .inr (.inl rfl)⟩
  | cons target rest ih =>
      simp only [sweepFrom]
      split
      next stopped => exact ⟨0, Nat.zero_le _, nofun, fun read => (read rfl).elim, .inl stopped⟩
      next going =>
        split
        next refused => exact ⟨0, Nat.zero_le _, nofun, fun read => (read rfl).elim, .inr (.inr ⟨by simp, rfl⟩)⟩
        next granted =>
          obtain ⟨part, within, covered, _, ending⟩ := ih (index + 1)
            (pollSource perMinute target (turns index).reads
              ((poller.noteStop (turns index).stop).take perMinute (turns index).now).2).1
          refine ⟨part + 1, by simpa using within, fun other member => ?_, fun _ => Nat.succ_pos part, ?_⟩
          · rw [List.take_succ_cons, List.mem_cons] at member
            rw [List.mem_append]
            rcases member with rfl | later
            · exact .inl (pollSource_mem _ _ (by simpa [Poller.take] using going))
            · exact .inr (covered other later)
          · rcases ending with stopped | all | ⟨left, resumed⟩
            · exact .inl stopped
            · exact .inr (.inl (by simpa using all))
            · exact .inr (.inr ⟨by simpa using left, by simpa using resumed⟩)

/-- A stopped poller reads nothing and stays stopped. -/
theorem sweepWorkspace_stopped (targets : List Utf16) (isDue : Utf16 → Bool) {poller : Poller}
    (stopped : poller.stopped = true) :
    (sweepWorkspace locale perMinute targets isDue turns poller).1.stopped = true ∧
      (sweepWorkspace locale perMinute targets isDue turns poller).2 = [] := by
  simp only [sweepWorkspace]
  split
  · exact ⟨stopped, rfl⟩
  · cases rotate ((groupOrder locale targets).filter isDue) poller.resumeAt with
    | nil => exact ⟨stopped, rfl⟩
    | cons target rest => simp [sweepFrom, Poller.noteStop, stopped]

/-- A sweep that finds its sources present and due goes through their rotation. -/
theorem sweepWorkspace_steady {sources targets : List Utf16} {isDue : Utf16 → Bool}
    (steady : Steady sources (.sweep targets isDue turns)) (idle : poller.inFlight = false) :
    sweepWorkspace locale perMinute targets isDue turns poller =
      sweepFrom perMinute turns (rotate (groupOrder locale sources) poller.resumeAt) 0 poller := by
  have due : (groupOrder locale sources).filter isDue = groupOrder locale sources :=
    List.filter_eq_self.mpr fun source member => steady.2 source ((groupOrder_perm locale sources).mem_iff.mp member)
  rw [sweepWorkspace, idle, groupOrder_eq steady.1, due]
  rfl

theorem pollOnHint_resumeAt (target : Utf16) (turn : PollTurn) (poller : Poller) :
    (pollOnHint perMinute target turn poller).resumeAt = poller.resumeAt := by
  simp only [pollOnHint]
  split
  · rfl
  · split
    · rfl
    · exact chainReads_resumeAt target turn.reads maxChainedReads 0 _

theorem sweepReads_sweep (targets : List Utf16) (isDue : Utf16 → Bool) (turns : Nat → PollTurn) (poller : Poller)
    (rest : List PollAction) :
    sweepReads locale perMinute poller (.sweep targets isDue turns :: rest) =
      (sweepWorkspace locale perMinute targets isDue turns poller).2 ::
        sweepReads locale perMinute (sweepWorkspace locale perMinute targets isDue turns poller).1 rest := rfl

/-- The sweeps of a stopped poller read nothing. -/
theorem sweepReads_stopped (actions : List PollAction) (stopped : poller.stopped = true) :
    ∀ read ∈ sweepReads locale perMinute poller actions, read = [] := by
  induction actions generalizing poller with
  | nil => exact nofun
  | cons action rest ih =>
      cases action with
      | hint target turn =>
          have unchanged : pollOnHint perMinute target turn poller = poller := by simp [pollOnHint, stopped]
          exact @ih (pollOnHint perMinute target turn poller) (by rw [unchanged, stopped])
      | hintDone => exact @ih { poller with inFlight := false } stopped
      | stop => exact @ih { poller with stopped := true } rfl
      | sweep targets isDue turns =>
          obtain ⟨still, nothing⟩ :=
            @sweepWorkspace_stopped locale perMinute turns targets isDue poller stopped
          rw [sweepReads_sweep]
          exact List.forall_mem_cons.mpr ⟨nothing, ih still⟩

/-- Steady sweeps read the sources in turn from where the poller resumes. -/
theorem sweepReads_covered (ordered : (groupOrder locale sources).Pairwise (· < ·)) {actions : List PollAction}
    (steady : ∀ action ∈ actions, Steady sources action)
    (nonempty : ∀ read ∈ sweepReads locale perMinute poller actions, read ≠ []) :
    ∀ source ∈ (rotate (groupOrder locale sources) poller.resumeAt).take
        (sweepReads locale perMinute poller actions).length,
      source ∈ (sweepReads locale perMinute poller actions).flatten := by
  induction actions generalizing poller with
  | nil => simp [sweepReads, runPolls]
  | cons action rest ih =>
      have later : ∀ action ∈ rest, Steady sources action :=
        fun other member => steady other (List.mem_cons_of_mem _ member)
      cases action with
      | hint target turn =>
          have kept := @ih (pollOnHint perMinute target turn poller) later nonempty
          rwa [pollOnHint_resumeAt] at kept
      | hintDone => exact @ih { poller with inFlight := false } later nonempty
      | stop => exact @ih { poller with stopped := true } later nonempty
      | sweep targets isDue turns =>
          have present : Steady sources (.sweep targets isDue turns) := steady _ List.mem_cons_self
          rw [sweepReads_sweep] at nonempty ⊢
          obtain ⟨reads, nonempty⟩ := List.forall_mem_cons.mp nonempty
          have idle : poller.inFlight = false := by
            cases busy : poller.inFlight with
            | false => rfl
            | true => exact (reads (by simp [sweepWorkspace, busy])).elim
          rw [sweepWorkspace_steady present idle] at reads nonempty ⊢
          obtain ⟨part, within, covered, progress, ending⟩ := @sweepFrom_reads perMinute turns
            (rotate (groupOrder locale sources) poller.resumeAt) 0 poller
          have nonzero : 0 < part := progress reads
          intro source member
          rw [List.length_cons] at member
          rw [List.flatten_cons, List.mem_append]
          rcases mem_take_rotate nonzero within member with first | behind
          · exact .inl (covered source first)
          rcases ending with stopped | all | ⟨left, resumed⟩
          · have noMore : sweepReads locale perMinute _ rest = [] :=
              List.eq_nil_iff_forall_not_mem.mpr fun read member =>
                nonempty read member (sweepReads_stopped rest stopped read member)
            rw [noMore] at behind
            exact nomatch behind
          · have inTurn := List.mem_rotate.mp (List.mem_of_mem_take behind)
            exact .inl (covered source (by rwa [all, List.take_length]))
          · obtain ⟨shift, rotated⟩ := rotate_rotated (groupOrder locale sources) poller.resumeAt
            have turned := rotate_resume ordered rotated left
            rw [← resumed] at turned
            rw [← turned] at behind
            exact .inr (ih later nonempty source behind)

/-- Where the two orders agree, a group in the one order is sorted by the other. -/
theorem groupOrder_ordered (distinct : sources.Nodup) (agree : OrdersAgree locale sources) :
    (groupOrder locale sources).Pairwise (· < ·) := by
  have apart : (groupOrder locale sources).Nodup := (groupOrder_perm locale sources).nodup_iff.mpr distinct
  refine ((groupOrder_pairwise sources).and apart).imp_of_mem fun {first second} inFirst inSecond ⟨before, differ⟩ => ?_
  refine agree first ((groupOrder_perm locale sources).mem_iff.mp inFirst) second
    ((groupOrder_perm locale sources).mem_iff.mp inSecond) ?_
  exact (@lt_iff_le_and_ne Utf16 locale.toPartialOrder first second).mpr ⟨before, differ⟩

/-- A group sorted by both orders agrees on every pair of its sources. -/
theorem ordersAgree_of_ordered (ordered : (groupOrder locale sources).Pairwise (· < ·)) :
    OrdersAgree locale sources := by
  intro first inFirst second inSecond before
  obtain ⟨here, inHere, rfl⟩ := List.getElem_of_mem ((groupOrder_perm locale sources).mem_iff.mpr inFirst)
  obtain ⟨there, inThere, rfl⟩ :=
    List.getElem_of_mem ((groupOrder_perm locale sources).mem_iff.mpr inSecond)
  have above := (@lt_iff_le_not_ge Utf16 locale.toPreorder _ _).mp before
  rcases Nat.lt_trichotomy here there with less | rfl | greater
  · exact List.pairwise_iff_getElem.mp ordered _ _ inHere inThere less
  · exact (above.2 above.1).elim
  · exact (above.2 (List.pairwise_iff_getElem.mp (groupOrder_pairwise sources) _ _ inThere inHere greater)).elim

/-- Names that are not in order have neighbours that are not. -/
theorem exists_inversion (distinct : sorted.Nodup) (disordered : ¬ sorted.Pairwise (· < ·)) :
    ∃ (index : Nat) (within : index + 1 < sorted.length), sorted[index + 1] < sorted[index] := by
  have broken : ¬ List.IsChain (· < ·) sorted := fun chain => disordered (List.isChain_iff_pairwise.mp chain)
  rw [List.isChain_iff_getElem] at broken
  push Not at broken
  obtain ⟨index, within, notLess⟩ := broken
  have below : sorted[index + 1] ≤ sorted[index] := List.not_lt.mp notLess
  refine ⟨index, within, Std.lt_of_le_of_ne below fun same => ?_⟩
  have := distinct.getElem_inj_iff.mp same
  omega

/-- A source whose neighbour before it is greater by code units begins no rotation. -/
theorem rotate_never (distinct : sorted.Nodup) (within : index + 1 < sorted.length)
    (inverted : sorted[index + 1] < sorted[index]) (resumeAt : Option Utf16) :
    (rotate sorted resumeAt).head? ≠ some sorted[index + 1] := by
  have notFirst : sorted.head? ≠ some sorted[index + 1] := by
    intro first
    rw [List.head?_eq_getElem?, List.getElem?_eq_getElem (by omega), Option.some.injEq] at first
    have := distinct.getElem_inj_iff.mp first
    omega
  cases resumeAt with
  | none => exact notFirst
  | some resumeAt =>
      simp only [rotate]
      split
      next place found =>
        obtain ⟨bounded, notBelow, above⟩ := List.findIdx?_eq_some_iff_getElem.mp found
        intro first
        rw [List.head?_append, List.head?_drop, List.getElem?_eq_getElem bounded, Option.some_or,
          Option.some.injEq] at first
        obtain rfl : place = index := Nat.succ.inj (distinct.getElem_inj_iff.mp first)
        have passed : ¬ resumeAt ≤ sorted[place] := by simpa using above place (Nat.lt_succ_self place)
        have taken : resumeAt ≤ sorted[place + 1] := by simpa using notBelow
        exact passed (List.le_trans taken (List.le_of_lt inverted))
      next => exact notFirst

/-- A turn of one read at a given time, with nothing more to read. -/
def briefTurn (now : Int) : PollTurn :=
  { stop := false, now := now, reads := fun _ => { ok := true, hasMore := false, now := now, stop := false } }

/-- Pushed hints that each take one poll's allowance. -/
def hints (hinted : Utf16) (now : Int) : Nat → List PollAction
  | 0 => []
  | count + 1 => .hint hinted (briefTurn now) :: .hintDone :: hints hinted now count

/-- In each minute the hints leave one poll's allowance to the sweep. -/
def hintedSweeps (perMinute : Nat) (sources : List Utf16) (hinted : Utf16) : Int → Nat → List PollAction
  | _, 0 => []
  | now, rounds + 1 =>
      hints hinted now (perMinute - 1) ++
        .sweep sources (fun _ => true) (fun _ => briefTurn now) ::
          hintedSweeps perMinute sources hinted (now + 60000) rounds

/-- The polls taken so far in the minute that began at a time. -/
def TakenAt (window : Option PollWindow) (now : Int) (count : Nat) : Prop :=
  count = 0 ∧ (∀ old ∈ window, 60000 ≤ now - old.startedAt) ∨
    0 < count ∧ window = some { startedAt := now, used := count }

/-- A poller that can be read from, with some polls taken in the minute. -/
structure Poller.Idle (poller : Poller) (now : Int) (count : Nat) : Prop where
  going : poller.stopped = false
  idle : poller.inFlight = false
  taken : TakenAt poller.window now count

variable {count : Nat} {now : Int}

/-- Below the limit a poll is granted, and counted. -/
theorem PollWindow.take_granted {window : Option PollWindow} (taken : TakenAt window now count)
    (room : count < max perMinute 1) :
    PollWindow.take perMinute window now = (true, some { startedAt := now, used := count + 1 }) := by
  rcases taken with ⟨rfl, stale⟩ | ⟨earlier, rfl⟩
  · cases window with
    | none => rfl
    | some old => simp [PollWindow.take, stale old rfl]
  · have room : ¬ perMinute ≤ count := by omega
    simp [PollWindow.take, room]

/-- A brief read changes nothing but the allowance. -/
theorem pollSource_brief (target : Utf16) (now : Int) (going : poller.stopped = false) :
    pollSource perMinute target (briefTurn now).reads poller = (poller, [target]) := by
  obtain ⟨stopped, inFlight, window, resumeAt⟩ := poller
  obtain rfl : stopped = false := going
  rfl

theorem Poller.Idle.hint (perMinute : Nat) (idle : poller.Idle now count) (room : count < max perMinute 1)
    (hinted : Utf16) :
    Poller.Idle { pollOnHint perMinute hinted (briefTurn now) poller with inFlight := false } now (count + 1) := by
  have granted := PollWindow.take_granted idle.taken room
  have done : pollOnHint perMinute hinted (briefTurn now) poller =
      { poller with window := some { startedAt := now, used := count + 1 }, inFlight := true } := by
    have brief : (briefTurn now).now = now := rfl
    simp [pollOnHint, idle.going, idle.idle, Poller.take, brief, granted, pollSource_brief]
  rw [done]
  exact ⟨idle.going, rfl, .inr ⟨Nat.succ_pos count, rfl⟩⟩

theorem Poller.Idle.hints (locale : LinearOrder Utf16) (perMinute : Nat) (idle : poller.Idle now count) (more : Nat)
    (room : count + more ≤ max perMinute 1) (hinted : Utf16) (rest : List PollAction) :
    ∃ after : Poller, after.Idle now (count + more) ∧
      sweepReads locale perMinute poller (Notifications.hints hinted now more ++ rest) =
        sweepReads locale perMinute after rest := by
  induction more generalizing poller count with
  | zero => exact ⟨poller, idle, rfl⟩
  | succ more ih =>
      have next := idle.hint perMinute (by omega) hinted
      obtain ⟨after, ends, same⟩ := ih next (by omega)
      exact ⟨after, by rwa [Nat.add_right_comm] at ends, same⟩

/-- With one poll left, a sweep reads the first source of its rotation and no other. -/
theorem Poller.Idle.sweep (perMinute : Nat) (idle : poller.Idle now count) (room : count < max perMinute 1)
    (last : perMinute ≤ count + 1) {first second : Utf16} {others : List Utf16}
    (turn : rotate (groupOrder locale sources) poller.resumeAt = first :: second :: others) :
    (sweepWorkspace locale perMinute sources (fun _ => true) (fun _ => briefTurn now) poller).1.Idle (now + 60000) 0 ∧
      (sweepWorkspace locale perMinute sources (fun _ => true) (fun _ => briefTurn now) poller).2 = [first] := by
  have granted := PollWindow.take_granted idle.taken room
  have refused : PollWindow.take perMinute (some { startedAt := now, used := count + 1 }) now =
      (false, some { startedAt := now, used := count + 1 }) := by
    simp [PollWindow.take, last]
  have brief : (briefTurn now).now = now := rfl
  have quiet : (briefTurn now).stop = false := rfl
  have steady : Steady sources (.sweep sources (fun _ => true) (fun _ => briefTurn now)) :=
    ⟨List.Perm.refl sources, fun _ _ => rfl⟩
  rw [sweepWorkspace_steady steady idle.idle, turn]
  obtain ⟨stopped, inFlight, window, resumeAt⟩ := poller
  obtain rfl : stopped = false := idle.going
  obtain rfl : inFlight = false := idle.idle
  simp only [sweepFrom, Poller.noteStop, quiet, brief, Poller.take, granted]
  simp only [Bool.or_self, Bool.false_eq_true, if_false, Bool.not_true, Bool.not_false, if_true,
    pollSource_brief, refused, List.append_nil]
  exact ⟨⟨rfl, rfl, .inl ⟨rfl, fun old same => by cases same; dsimp only; omega⟩⟩, trivial⟩

/-- Sweeps that the hints leave one poll each read nothing but the beginnings of rotations. -/
theorem Poller.Idle.hintedSweeps (locale : LinearOrder Utf16) (perMinute : Nat) (several : 2 ≤ sources.length)
    (hinted : Utf16) (rounds : Nat) (idle : poller.Idle now 0) :
    (sweepReads locale perMinute poller (Notifications.hintedSweeps perMinute sources hinted now rounds)).length =
        rounds ∧
      ∀ read ∈ sweepReads locale perMinute poller (Notifications.hintedSweeps perMinute sources hinted now rounds),
        ∃ first resumeAt, read = [first] ∧ (rotate (groupOrder locale sources) resumeAt).head? = some first := by
  induction rounds generalizing poller now with
  | zero => exact ⟨rfl, nofun⟩
  | succ rounds ih =>
      obtain ⟨before, left, same⟩ := idle.hints locale perMinute (perMinute - 1) (by omega) hinted (.sweep sources (fun _ => true) (fun _ => briefTurn now) ::
          Notifications.hintedSweeps perMinute sources hinted (now + 60000) rounds)
      rw [Notifications.hintedSweeps, same, sweepReads_sweep]
      obtain ⟨shift, rotated⟩ := rotate_rotated (groupOrder locale sources) before.resumeAt
      have long : 2 ≤ (rotate (groupOrder locale sources) before.resumeAt).length := by
        rwa [rotated, List.length_rotate, (groupOrder_perm locale sources).length_eq]
      match turn : rotate (groupOrder locale sources) before.resumeAt with
      | [] | [_] => simp [turn] at long
      | first :: second :: others =>
          obtain ⟨again, reads⟩ := left.sweep perMinute (by omega) (by omega) turn
          obtain ⟨counted, all⟩ := ih again
          rw [reads]
          refine ⟨by rw [List.length_cons, counted], List.forall_mem_cons.mpr ⟨?_, all⟩⟩
          exact ⟨first, before.resumeAt, rfl, by rw [turn]; rfl⟩

theorem steady_hintedSweeps (hinted : Utf16) (rounds : Nat) (now : Int) :
    ∀ action ∈ hintedSweeps perMinute sources hinted now rounds, Steady sources action := by
  have hinting : ∀ now count, ∀ action ∈ hints hinted now count, Steady sources action := by
    intro now count
    induction count with
    | zero => exact nofun
    | succ count ih => exact List.forall_mem_cons.mpr ⟨trivial, List.forall_mem_cons.mpr ⟨trivial, ih⟩⟩
  induction rounds generalizing now with
  | zero => exact nofun
  | succ rounds ih =>
      refine List.forall_mem_append.mpr ⟨hinting now (perMinute - 1), List.forall_mem_cons.mpr ⟨?_, ih _⟩⟩
      exact ⟨List.Perm.refl sources, fun _ _ => rfl⟩

/-- No source is starved exactly when the sources stand in one order by name and by code units. -/
theorem starvesNone_iff (locale : LinearOrder Utf16) (perMinute : Nat) (sources : List Utf16)
    (distinct : sources.Nodup) : StarvesNone locale perMinute sources ↔ OrdersAgree locale sources := by
  have apart : (groupOrder locale sources).Nodup := (groupOrder_perm locale sources).nodup_iff.mpr distinct
  constructor
  · intro fair
    by_contra disagree
    have disordered : ¬ (groupOrder locale sources).Pairwise (· < ·) :=
      fun ordered => disagree (ordersAgree_of_ordered ordered)
    obtain ⟨index, within, inverted⟩ := exists_inversion apart disordered
    have several : 2 ≤ sources.length := by
      have := (groupOrder_perm locale sources).length_eq
      omega
    let start : Poller := { stopped := false, inFlight := false, window := none, resumeAt := none }
    have idle : start.Idle 0 0 := ⟨rfl, rfl, .inl ⟨rfl, nofun⟩⟩
    -- the hints ask for the source before the starved one
    obtain ⟨counted, reads⟩ := idle.hintedSweeps locale perMinute several
      (groupOrder locale sources)[index] sources.length
    have starved : (groupOrder locale sources)[index + 1] ∈ sources :=
      (groupOrder_perm locale sources).mem_iff.mp (List.getElem_mem within)
    have found := fair start _ (steady_hintedSweeps _ _ _) (fun read member => ?_) counted _ starved
    · obtain ⟨read, member, inRead⟩ := List.mem_flatten.mp found
      obtain ⟨first, resumeAt, rfl, begins⟩ := reads read member
      obtain rfl := List.mem_singleton.mp inRead
      exact rotate_never apart within inverted resumeAt begins
    · obtain ⟨first, _, rfl, _⟩ := reads read member
      exact List.cons_ne_nil first []
  · intro agree start actions steady nonempty counted source member
    have ordered := groupOrder_ordered distinct agree
    refine sweepReads_covered ordered steady nonempty source ?_
    obtain ⟨shift, rotated⟩ := rotate_rotated (groupOrder locale sources) start.resumeAt
    have whole : (rotate (groupOrder locale sources) start.resumeAt).length = sources.length := by
      rw [rotated, List.length_rotate, (groupOrder_perm locale sources).length_eq]
    rw [counted, ← whole, List.take_length, rotated, List.mem_rotate]
    exact (groupOrder_perm locale sources).mem_iff.mpr member

/-- Names by their letters first, and by their units where the letters are the same. -/
def letters (name : Utf16) : List Nat ×ₗ List Nat :=
  toLex (name.map fun unit => if 65 ≤ unit.toNat ∧ unit.toNat ≤ 90 then unit.toNat + 32 else unit.toNat,
    name.map UInt16.toNat)

theorem letters_injective : Function.Injective letters := fun _ _ same =>
  List.map_injective_iff.mpr (fun _ _ => UInt16.toNat.inj) (congrArg Prod.snd (toLex.injective same))

/-- An order that puts small and capital letters together. -/
@[reducible] def alphabetical : LinearOrder Utf16 := LinearOrder.lift' letters letters_injective

theorem starvesNone_lowercase : StarvesNone alphabetical 1 [Utf16.ofString "mail", Utf16.ofString "crm"] :=
  (starvesNone_iff alphabetical 1 _ (by decide +kernel)).mpr
    (show ∀ first ∈ _, ∀ second ∈ _, alphabetical.lt first second → first < second from by decide +kernel)

/-- With one poll in each minute the second sweep goes back to the first source. -/
theorem capital_name_starved : ¬ StarvesNone alphabetical 1 [Utf16.ofString "crm", Utf16.ofString "Mail"] := by
  intro fair
  have found := fair { stopped := false, inFlight := false, window := none, resumeAt := none }
    [.sweep [Utf16.ofString "crm", Utf16.ofString "Mail"] (fun _ => true) (fun _ => briefTurn 0),
      .sweep [Utf16.ofString "crm", Utf16.ofString "Mail"] (fun _ => true) (fun _ => briefTurn 60000)]
    (by simp [Steady]) (by decide +kernel) (by decide +kernel) (Utf16.ofString "Mail") (by simp)
  revert found
  decide +kernel

end NimbleBrain.Notifications
