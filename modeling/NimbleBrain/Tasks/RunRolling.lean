import NimbleBrain.Tasks.RunHistory

/- What the roll-over leaves in the archive months. -/

namespace NimbleBrain.Tasks

open Library

namespace RunHistory

variable {history : RunHistory}

theorem segment_setSegment (history : RunHistory) (month other : Nat) (segment : RunSegment) :
    (history.setSegment month segment).segment other = if other = month then segment else history.segment other := by
  rw [RunHistory.segment, setSegment]
  dsimp only
  rw [OrderedMap.get?_set]
  by_cases same : other = month
  · rw [if_pos same, if_pos same, Option.getD_some]
  · rw [if_neg same, if_neg same, RunHistory.segment]

variable {month : Nat}

/-- A month that is not listed has no archive. -/
theorem segment_of_unlisted (unlisted : month ∉ history.listRunSegmentMonths) :
    history.segment month = {} := by
  rw [listRunSegmentMonths, List.mem_insertionSort] at unlisted
  rw [RunHistory.segment, OrderedMap.get?_eq_none_iff.mpr, Option.getD_none]
  intro entry among same
  exact unlisted (List.mem_map.mpr ⟨entry, among, same⟩)

theorem performAll_append (history : RunHistory) (first second : List RunFileOp) :
    history.performAll (first ++ second) = (history.performAll first).performAll second :=
  List.foldl_append ..

@[simp] theorem performAll_cons (history : RunHistory) (op : RunFileOp) (rest : List RunFileOp) :
    history.performAll (op :: rest) = (history.perform op).performAll rest := rfl

/-- Moving results leaves every index. -/
theorem perform_archiveRunResult (history : RunHistory) (month : Nat) (runId : RunId) :
    (history.perform (.archiveRunResult month runId)).index = history.index ∧
      ∀ other, ((history.perform (.archiveRunResult month runId)).segment other).index =
        (history.segment other).index := by
  rw [perform]
  split
  · exact ⟨rfl, fun _ => rfl⟩
  · refine ⟨rfl, fun other => ?_⟩
    change (RunHistory.segment (history.setSegment month _) other).index = _
    rw [segment_setSegment]
    split
    · next same => rw [same]
    · rfl

theorem performAll_archiveRunResults (history : RunHistory) (month : Nat) (runs : List TaskRun) :
    (history.performAll (runs.map fun run => .archiveRunResult month run.id)).index = history.index ∧
      ∀ other, ((history.performAll (runs.map fun run => .archiveRunResult month run.id)).segment other).index =
        (history.segment other).index := by
  induction runs generalizing history with
  | nil => exact ⟨rfl, fun _ => rfl⟩
  | cons run rest ih =>
      obtain ⟨index, segments⟩ := history.perform_archiveRunResult month run.id
      obtain ⟨later, others⟩ := ih (history.perform (.archiveRunResult month run.id))
      exact ⟨later.trans index, fun other => (others other).trans (segments other)⟩

/-- The archive of one month is appended, and its results are moved. -/
theorem performAll_archiveOps (history : RunHistory) (entry : Nat × List TaskRun) :
    (history.performAll (archiveOps entry)).index = history.index ∧
      ∀ other, ((history.performAll (archiveOps entry)).segment other).index =
        (history.segment other).index ++ if other = entry.1 then entry.2 else [] := by
  rw [archiveOps, performAll_cons, performAll_cons]
  obtain ⟨index, segments⟩ := performAll_archiveRunResults
    ((history.perform (.ensureSegment entry.1)).perform (.appendSegment entry.1 entry.2)) entry.1 entry.2
  refine ⟨index, fun other => (segments other).trans ?_⟩
  rw [perform, perform, segment_setSegment, segment_setSegment, segment_setSegment, if_pos rfl]
  by_cases same : other = entry.1
  · rw [if_pos same, if_pos same, same]
  · rw [if_neg same, if_neg same, if_neg same, List.append_nil]

/-- The lines that groups hold for a month. -/
def linesFor (entries : List (Nat × List TaskRun)) (month : Nat) : List TaskRun :=
  entries.flatMap fun entry => if month = entry.1 then entry.2 else []

/-- Every month gets the lines of its groups. -/
theorem performAll_groups (history : RunHistory) (entries : List (Nat × List TaskRun)) :
    (history.performAll (entries.flatMap archiveOps)).index = history.index ∧
      ∀ month, ((history.performAll (entries.flatMap archiveOps)).segment month).index =
        (history.segment month).index ++ linesFor entries month := by
  induction entries generalizing history with
  | nil => exact ⟨rfl, fun month => (List.append_nil _).symm⟩
  | cons entry rest ih =>
      rw [List.flatMap_cons, performAll_append]
      obtain ⟨index, segments⟩ := history.performAll_archiveOps entry
      obtain ⟨later, others⟩ := ih (history.performAll (archiveOps entry))
      refine ⟨later.trans index, fun month => ?_⟩
      rw [others month, segments month, linesFor, linesFor, List.flatMap_cons, List.append_assoc]

theorem linesFor_absent {entries : List (Nat × List TaskRun)} (absent : ∀ entry ∈ entries, entry.1 ≠ month) :
    linesFor entries month = [] := by
  rw [linesFor, List.flatMap_eq_nil_iff]
  exact fun entry among => if_neg (absent entry among).symm

/-- A map holds one group for a month. -/
theorem linesFor_entries (groups : OrderedMap Nat (List TaskRun)) (month : Nat) :
    linesFor groups.entries month = (groups.get? month).getD [] := by
  cases found : groups.get? month with
  | none => exact linesFor_absent (OrderedMap.get?_eq_none_iff.mp found)
  | some lines =>
      obtain ⟨before, after, split⟩ := List.append_of_mem (OrderedMap.get?_eq_some_iff.mp found)
      have distinct := groups.distinct
      rw [split, List.map_append, List.map_cons, List.nodup_append] at distinct
      have fresh := (List.nodup_cons.mp distinct.2.1).1
      have earlier : linesFor before month = [] := by
        apply linesFor_absent
        intro entry among same
        exact distinct.2.2 entry.1 (List.mem_map_of_mem among) month List.mem_cons_self same
      have later : linesFor after month = [] := by
        apply linesFor_absent
        intro entry among same
        have listed : entry.1 ∈ after.map Prod.fst := List.mem_map_of_mem among
        exact fresh (same ▸ listed)
      rw [linesFor] at earlier later
      rw [split, linesFor, List.flatMap_append, List.flatMap_cons, earlier, later, if_pos rfl, List.append_nil]
      rfl

/-- The group of a month holds its rolled lines in order. -/
theorem byMonth_get? (rolled : List TaskRun) (month : Nat) :
    ((byMonth rolled).get? month).getD [] = rolled.filter fun run => archiveSlotOf run = month := by
  have fold (groups : OrderedMap Nat (List TaskRun)) : ((rolled.foldl (fun groups run =>
      groups.set (archiveSlotOf run) ((groups.get? (archiveSlotOf run)).getD [] ++ [run])) groups).get? month).getD [] =
        (groups.get? month).getD [] ++ rolled.filter fun run => archiveSlotOf run = month := by
    induction rolled generalizing groups with
    | nil => exact (List.append_nil _).symm
    | cons run rest ih =>
        rw [List.foldl_cons, ih, OrderedMap.get?_set, List.filter_cons]
        by_cases same : month = archiveSlotOf run
        · simp [same]
        · simp [same, Ne.symm same]
  rw [byMonth, fold, OrderedMap.get?_empty]
  rfl

theorem linesFor_byMonth (rolled : List TaskRun) (month : Nat) :
    linesFor (byMonth rolled).entries month = rolled.filter fun run => archiveSlotOf run = month := by
  rw [linesFor_entries, byMonth_get?]

/-- Each group holds the rolled lines of its month. -/
theorem byMonth_entries {rolled : List TaskRun} {entry : Nat × List TaskRun}
    (among : entry ∈ (byMonth rolled).entries) :
    entry.2 = rolled.filter fun run => archiveSlotOf run = entry.1 := by
  have found : (byMonth rolled).get? entry.1 = some entry.2 := OrderedMap.get?_eq_some_iff.mpr among
  rw [← byMonth_get?, found, Option.getD_some]

/-- An append to a short index leaves the archive. -/
theorem appendRun_short {run : TaskRun} (fits : (history.index ++ [run]).length ≤ maxRunLines) :
    history.appendRun run = { history with index := history.index ++ [run] } := by
  rw [appendRun, appendOps, performAll_cons, rollOps, if_pos fits]
  rfl

/-- An append that is done puts the oldest lines at the end of their months. -/
theorem appendRun_files (history : RunHistory) (run : TaskRun) :
    (history.appendRun run).index =
        (history.index ++ [run]).drop ((history.index ++ [run]).length - maxRunLines) ∧
      ∀ month, ((history.appendRun run).segment month).index = (history.segment month).index ++
        ((history.index ++ [run]).take ((history.index ++ [run]).length - maxRunLines)).filter fun run =>
          archiveSlotOf run = month := by
  by_cases fits : (history.index ++ [run]).length ≤ maxRunLines
  · rw [appendRun_short fits, Nat.sub_eq_zero_of_le fits, List.drop_zero, List.take_zero]
    refine ⟨rfl, fun month => ?_⟩
    rw [List.filter_nil, List.append_nil]
    rfl
  · rw [appendRun, appendOps, performAll_cons, perform, rollOps, if_neg fits]
    generalize (history.index ++ [run]).length - maxRunLines = spare
    rw [performAll_append]
    obtain ⟨-, segments⟩ := performAll_groups { history with index := history.index ++ [run] }
      (byMonth ((history.index ++ [run]).take spare)).entries
    refine ⟨rfl, fun month => ?_⟩
    have rolled := segments month
    rw [linesFor_byMonth] at rolled
    exact rolled

end RunHistory

end NimbleBrain.Tasks

/- A page holds the newest of the runs that were picked, and its cursor lies between them and the others. -/

namespace NimbleBrain.Tasks

open Library

/-- The runs are listed newest first. -/
def NewestFirst (runs : List TaskRun) : Prop := runs.Pairwise fun first second => second.startedAt ≤ first.startedAt

namespace RunHistory

theorem newestFirst_sort (picked : List TaskRun) :
    NewestFirst (picked.insertionSort fun first second => second.startedAt ≤ first.startedAt) := by
  have total : Std.Total fun first second : TaskRun => second.startedAt ≤ first.startedAt :=
    ⟨fun first second => Nat.le_total second.startedAt first.startedAt⟩
  have trans : IsTrans TaskRun fun first second => second.startedAt ≤ first.startedAt :=
    ⟨fun _ _ _ one two => two.trans one⟩
  exact List.pairwise_insertionSort _ picked

variable {limit : Nat}

/-- The runs of a page lie before its place in the list, and the others after it. -/
theorem cutPage_spec (positive : 0 < limit) {runs : List TaskRun} (newest : NewestFirst runs) (some' : runs ≠ []) :
    ∃ before last ties rest, cutPage limit runs = (before ++ last :: ties, rest) ∧
      runs = before ++ last :: (ties ++ rest) ∧ before.length + 1 = min limit runs.length ∧
      (∀ run ∈ ties, run.startedAt = last.startedAt) ∧ ∀ run ∈ rest, run.startedAt < last.startedAt := by
  have taken : runs.take limit ≠ [] := by
    intro none
    rcases List.take_eq_nil_iff.mp none with zero | nil
    · exact positive.ne' zero
    · exact some' nil
  obtain ⟨before, last, ends⟩ := (List.eq_nil_or_concat (runs.take limit)).resolve_left taken
  rw [List.concat_eq_append] at ends
  let tied := fun run : TaskRun => decide (run.startedAt = last.startedAt)
  have split : runs = before ++ last :: runs.drop limit := by
    rw [← List.singleton_append, ← List.append_assoc, ← ends, List.take_append_drop]
  refine ⟨before, last, (runs.drop limit).takeWhile tied, (runs.drop limit).dropWhile tied, ?_, ?_, ?_, ?_, ?_⟩
  · rw [cutPage, ends, List.getLast?_concat, List.append_assoc]
    rfl
  · rw [List.takeWhile_append_dropWhile, ← split]
  · rw [← List.length_take, ends, List.length_append, List.length_singleton]
  · intro run among
    have all := List.all_takeWhile (l := runs.drop limit) (p := tied)
    exact of_decide_eq_true (List.all_eq_true.mp all run among)
  · -- The first run behind the page is not tied, and the later ones started no later.
    have older : ∀ run ∈ runs.drop limit, run.startedAt ≤ last.startedAt := by
      rw [NewestFirst, split, List.pairwise_append, List.pairwise_cons] at newest
      exact newest.2.1.1
    have sorted : NewestFirst ((runs.drop limit).dropWhile tied) :=
      (newest.drop).sublist (List.dropWhile_sublist _)
    intro run among
    cases behind : (runs.drop limit).dropWhile tied with
    | nil =>
        rw [behind] at among
        cases among
    | cons head others =>
        have first := List.head?_dropWhile_not tied (runs.drop limit)
        have untied : tied head = false := by simpa [behind] using first
        have member : head ∈ runs.drop limit :=
          (List.dropWhile_sublist tied).mem (behind ▸ List.mem_cons_self)
        have less : head.startedAt < last.startedAt :=
          lt_of_le_of_ne (older head member) (of_decide_eq_false untied)
        rw [behind] at among sorted
        rcases List.mem_cons.mp among with rfl | later
        · exact less
        · exact ((List.pairwise_cons.mp sorted).1 run later).trans_lt less

/-- As many runs started by the bound as there are up to the last one of a page, exactly when that one did too. -/
theorem bound_le_iff {before after : List TaskRun} {last : TaskRun} (newest : NewestFirst (before ++ last :: after))
    (bound : Nat) : bound ≤ last.startedAt ↔
      before.length + 1 ≤ (before ++ last :: after).countP fun run => bound ≤ run.startedAt := by
  rw [NewestFirst, List.pairwise_append, List.pairwise_cons] at newest
  obtain ⟨-, ⟨older, -⟩, newer⟩ := newest
  rw [List.countP_append, List.countP_cons]
  constructor
  · intro reached
    have all : before.countP (fun run => bound ≤ run.startedAt) = before.length := by
      rw [List.countP_eq_length]
      intro run among
      exact decide_eq_true (reached.trans (newer run among last List.mem_cons_self))
    rw [all, if_pos (decide_eq_true reached)]
    omega
  · intro enough
    by_contra missed
    have none : after.countP (fun run => bound ≤ run.startedAt) = 0 := by
      rw [List.countP_eq_zero]
      intro run among within
      exact missed ((of_decide_eq_true within).trans (older run among))
    have few := List.countP_le_length (p := fun run : TaskRun => decide (bound ≤ run.startedAt)) (l := before)
    rw [none, if_neg (fun within => missed (of_decide_eq_true within))] at enough
    omega

/-- A page of the runs that were picked, with those it leaves. -/
structure PageOf (limit unread : Nat) (picked : List TaskRun) (page : RunsPage) (rest : List TaskRun) : Prop where
  parts : (page.runs ++ rest).Perm picked
  newest : NewestFirst page.runs
  ends : page.nextBefore = none → rest = []
  cursor : ∀ last, page.nextBefore = some last → page.runs ≠ [] ∧ (∀ run ∈ page.runs, last ≤ run.startedAt) ∧
    (∃ run ∈ page.runs, run.startedAt = last) ∧ (∀ run ∈ rest, run.startedAt < last) ∧
    ∀ bound, bound ≤ last ↔ min limit picked.length ≤ picked.countP fun run => bound ≤ run.startedAt
  goesOn : 0 < unread → picked ≠ [] → page.nextBefore.isSome = true

theorem pageOf_spec (positive : 0 < limit) (unread : Nat) (picked : List TaskRun) :
    ∃ rest, PageOf limit unread picked (pageOf limit unread picked) rest := by
  let sorted := picked.insertionSort fun first second => second.startedAt ≤ first.startedAt
  have perm : sorted.Perm picked := List.perm_insertionSort _ picked
  have newest : NewestFirst sorted := newestFirst_sort picked
  by_cases none : sorted = []
  · have empty : picked = [] := List.perm_nil.mp (none ▸ perm).symm
    subst empty
    have page : pageOf limit unread [] = { runs := [] } := by
      have cut : cutPage limit [] = ([], []) := by simp [cutPage]
      rw [pageOf, List.insertionSort_nil, cut]
      dsimp only
      split <;> rfl
    rw [page]
    exact ⟨[], .nil, List.Pairwise.nil, fun _ => rfl, (fun _ never => nomatch never), fun _ some' => absurd rfl some'⟩
  · obtain ⟨before, last, ties, rest, cut, split, place, tied, older⟩ := cutPage_spec positive newest none
    have ends : (before ++ last :: ties).getLast?.map TaskRun.startedAt = some last.startedAt := by
      cases equal : ties.getLast? with
      | none => rw [List.getLast?_append, List.getLast?_cons, equal]; rfl
      | some run =>
          rw [List.getLast?_append, List.getLast?_cons, equal]
          exact congrArg some (tied run (List.mem_of_getLast? equal))
    have page : pageOf limit unread picked = if rest ≠ [] ∨ 0 < unread
        then { runs := before ++ last :: ties, nextBefore := some last.startedAt }
        else { runs := before ++ last :: ties } := by
      rw [pageOf, cut]
      dsimp only
      rw [ends]
    have runs : (pageOf limit unread picked).runs = before ++ last :: ties := by
      rw [page]
      split <;> rfl
    have whole : sorted = (before ++ last :: ties) ++ rest := by rw [split, List.append_assoc, List.cons_append]
    have front : NewestFirst (before ++ last :: ties) :=
      newest.sublist (whole ▸ List.sublist_append_left _ rest)
    have length : sorted.length = picked.length := perm.length_eq
    have next (start : Nat) (cursor : (pageOf limit unread picked).nextBefore = some start) :
        start = last.startedAt := by
      rw [page] at cursor
      split at cursor
      · exact (Option.some.inj cursor).symm
      · cases cursor
    refine ⟨rest, ?_, runs ▸ front, ?_, ?_, ?_⟩
    · rw [runs, ← whole]
      exact perm
    · intro stops
      rw [page] at stops
      split at stops
      · cases stops
      · next done => exact not_not.mp fun more => done (.inl more)
    · intro start cursor
      obtain rfl := next start cursor
      rw [runs]
      refine ⟨by simp, ?_, ⟨last, by simp, rfl⟩, older, fun bound => ?_⟩
      · intro run among
        rcases List.mem_append.mp among with earlier | later
        · exact (List.pairwise_append.mp front).2.2 run earlier last List.mem_cons_self
        · rcases List.mem_cons.mp later with rfl | tie
          · exact le_rfl
          · exact (tied run tie).ge
      · rw [← perm.countP_eq, ← length, ← place, split]
        exact bound_le_iff (split ▸ newest) bound
    · intro more _
      rw [page, if_pos (.inr more)]
      rfl

end RunHistory

end NimbleBrain.Tasks
