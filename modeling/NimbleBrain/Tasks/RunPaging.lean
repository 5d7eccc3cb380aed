import NimbleBrain.Tasks.RunRolling
import Mathlib.Data.List.Induction

/- A page after the first one, with the pages that follow it, reads every older run once. -/

namespace NimbleBrain.Tasks

open Library

namespace ReadRunsOptions

variable {opts : ReadRunsOptions}

theorem pageLimit_pos (opts : ReadRunsOptions) : 0 < opts.pageLimit := Nat.lt_of_lt_of_le Nat.one_pos (Nat.le_max_left 1 _)

/-- Of runs with ids of their own, the wanted ones are picked. -/
theorem takeRuns_eq {picked runs : List TaskRun} (distinct : ((picked ++ runs).map TaskRun.id).Nodup) :
    opts.takeRuns picked runs = picked ++ runs.filter opts.wanted := by
  rw [takeRuns]
  induction runs generalizing picked with
  | nil => exact (List.append_nil _).symm
  | cons run rest ih =>
      rw [List.foldl_cons, List.filter_cons]
      cases wanted : opts.wanted run with
      | false =>
          rw [if_pos (by simp), if_neg Bool.false_ne_true]
          apply ih
          exact distinct.sublist ((List.Sublist.refl picked).append (List.sublist_cons_self run rest) |>.map _)
      | true =>
          have fresh : picked.any (fun other => other.id = run.id) = false := by
            rw [List.map_append, List.nodup_append] at distinct
            rw [List.any_eq_false]
            intro other among same
            exact distinct.2.2 other.id (List.mem_map_of_mem among) run.id (by simp) (of_decide_eq_true same)
          rw [if_neg (by rw [fresh]; decide), if_pos rfl, ih, List.append_assoc, List.singleton_append]
          rwa [List.append_assoc, List.singleton_append]

end ReadRunsOptions

namespace RunHistory

variable {history : RunHistory} {opts : ReadRunsOptions}

/-- The runs of the months, month by month. -/
def runsOf (history : RunHistory) (months : List Nat) : List TaskRun :=
  months.flatMap fun month => (history.segment month).index

variable {months : List Nat} {run : TaskRun} {month before last : Nat} {page : RunsPage}
  {rest wanted : List TaskRun}

theorem mem_runsOf :
    run ∈ history.runsOf months ↔ ∃ month ∈ months, run ∈ (history.segment month).index := List.mem_flatMap

/-- The archived runs, newest month first. -/
def archived (history : RunHistory) : List TaskRun := history.runsOf history.listRunSegmentMonths

def allRuns (history : RunHistory) : List TaskRun := history.index ++ history.archived

/-- Archived runs are in the month of their start, and no run is kept twice. -/
structure Whole (history : RunHistory) : Prop where
  placed : ∀ month, ∀ run ∈ (history.segment month).index, archiveSlotOf run = month
  distinct : (history.allRuns.map TaskRun.id).Nodup

theorem started_before_end (placed : archiveSlotOf run = month) :
    run.startedAt < monthEndMs month := placed ▸ Months.lt_monthStart_succ run.startedAt

theorem month_started (placed : archiveSlotOf run = month) :
    Months.monthStart month ≤ run.startedAt := placed ▸ Months.monthStart_monthOf_le run.startedAt

theorem monthEndMs_le {first second : Nat} (older : first ≤ second) : monthEndMs first ≤ monthEndMs second :=
  Months.monthStart_strictMono.monotone (Nat.succ_le_succ older)

/-- The months are listed newest first. -/
theorem months_newestFirst (history : RunHistory) :
    history.listRunSegmentMonths.Pairwise fun first second => second ≤ first := by
  have total : Std.Total fun first second : Nat => second ≤ first := ⟨fun first second => Nat.le_total second first⟩
  have trans : IsTrans Nat fun first second => second ≤ first := ⟨fun _ _ _ one two => two.trans one⟩
  exact List.pairwise_insertionSort _ _

/-- Every wanted run of the segments is picked, or there are segments left and the page is full of newer runs. -/
theorem walkSegments_spec (placed : ∀ month, ∀ run ∈ (history.segment month).index, archiveSlotOf run = month)
    (start : opts.before = some before) (newest : months.Pairwise fun first second => second ≤ first)
    {picked : List TaskRun} (distinct : ((picked ++ history.runsOf months).map TaskRun.id).Nodup) :
    ∃ extra, (history.walkSegments opts before months picked).2 = picked ++ extra ∧
      extra.Sublist ((history.runsOf months).filter opts.wanted) ∧
      ∀ run ∈ history.runsOf months, opts.wanted run = true → run ∈ extra ∨
        0 < (history.walkSegments opts before months picked).1 ∧ ∃ bound, run.startedAt < bound ∧
          opts.pageLimit ≤ (picked ++ extra).countP fun other => bound ≤ other.startedAt := by
  induction months generalizing picked with
  | nil => exact ⟨[], (List.append_nil _).symm, List.Sublist.refl _, fun _ among => (List.not_mem_nil among).elim⟩
  | cons month rest ih =>
      obtain ⟨older, later⟩ := List.pairwise_cons.mp newest
      have whole : history.runsOf (month :: rest) = (history.segment month).index ++ history.runsOf rest :=
        List.flatMap_cons
      have ended : ∀ run ∈ history.runsOf (month :: rest), run.startedAt < monthEndMs month := by
        intro run among
        obtain ⟨own, listed, inside⟩ := mem_runsOf.mp among
        refine (started_before_end (placed own run inside)).trans_le (monthEndMs_le ?_)
        rcases List.mem_cons.mp listed with rfl | behind
        · exact le_rfl
        · exact older own behind
      rw [walkSegments]
      split
      · next stops =>
          refine ⟨[], (List.append_nil _).symm, List.nil_sublist _, fun run among wanted => ?_⟩
          obtain ⟨since, given, past⟩ := (Option.any_eq_true ..).mp stops
          have closes := ended run among
          rw [ReadRunsOptions.wanted, ReadRunsOptions.matchesRun, given] at wanted
          simp only [Option.all_some, Bool.and_eq_true, decide_eq_true_eq] at wanted past
          omega
      · split
        · next skipped =>
            have fewer : ((picked ++ history.runsOf rest).map TaskRun.id).Nodup := by
              refine distinct.sublist (List.Sublist.map _ ((List.Sublist.refl picked).append ?_))
              rw [whole]
              exact List.sublist_append_right _ _
            obtain ⟨extra, picks, part, all⟩ := ih later fewer
            refine ⟨extra, picks, ?_, fun run among wanted => ?_⟩
            · rw [whole, List.filter_append]
              exact part.trans (List.sublist_append_right _ _)
            · rw [whole] at among
              rcases List.mem_append.mp among with own | behind
              · have begun := month_started (placed month run own)
                rw [ReadRunsOptions.wanted, start] at wanted
                simp only [Option.all_some, Bool.and_eq_true, decide_eq_true_eq] at wanted
                omega
              · exact all run behind wanted
        · split
          · next full =>
              refine ⟨[], (List.append_nil _).symm, List.nil_sublist _, fun run among _ => .inr ⟨Nat.succ_pos _, ?_⟩⟩
              refine ⟨monthEndMs month, ended run among, ?_⟩
              rw [List.append_nil, List.countP_eq_length_filter]
              exact full
          · have own : ((picked ++ (history.segment month).index).map TaskRun.id).Nodup := by
              refine distinct.sublist (List.Sublist.map _ ((List.Sublist.refl picked).append ?_))
              rw [whole]
              exact List.sublist_append_left _ _
            have fewer : ((picked ++ (history.segment month).index.filter opts.wanted ++
                history.runsOf rest).map TaskRun.id).Nodup := by
              rw [whole, ← List.append_assoc] at distinct
              exact distinct.sublist (List.Sublist.map _ (List.Sublist.append
                ((List.Sublist.refl picked).append List.filter_sublist) (List.Sublist.refl _)))
            rw [ReadRunsOptions.takeRuns_eq own]
            obtain ⟨extra, picks, part, all⟩ := ih later fewer
            refine ⟨(history.segment month).index.filter opts.wanted ++ extra, ?_, ?_, fun run among wanted => ?_⟩
            · rw [picks, List.append_assoc]
            · rw [whole, List.filter_append]
              exact (List.Sublist.refl _).append part
            · rw [whole] at among
              rw [← List.append_assoc]
              rcases List.mem_append.mp among with inside | behind
              · exact .inl (List.mem_append_left _ (List.mem_filter.mpr ⟨inside, wanted⟩))
              · exact (all run behind wanted).imp_left (List.mem_append_right _)

/-- A page of the wanted runs, where the rest started before its cursor. -/
structure Reads (wanted : List TaskRun) (page : RunsPage) (rest : List TaskRun) : Prop where
  parts : (page.runs ++ rest).Perm wanted
  newest : NewestFirst page.runs
  ends : page.nextBefore = none → rest = []
  cursor : ∀ last, page.nextBefore = some last → page.runs ≠ [] ∧ (∀ run ∈ page.runs, last ≤ run.startedAt) ∧
    (∃ run ∈ page.runs, run.startedAt = last) ∧ ∀ run ∈ rest, run.startedAt < last

theorem Whole.hot (whole : history.Whole) (opts : ReadRunsOptions) :
    opts.takeRuns [] history.index = history.index.filter opts.wanted := by
  rw [ReadRunsOptions.takeRuns_eq, List.nil_append]
  exact whole.distinct.sublist ((List.sublist_append_left ..).map _)

/-- A page after the first one leaves only wanted runs that started before its cursor. -/
theorem Whole.laterPage (whole : history.Whole) (start : opts.before = some before) :
    ∃ rest, Reads (history.allRuns.filter opts.wanted) (history.readRunsPage opts) rest := by
  have distinct := whole.distinct
  have hot := whole.hot opts
  have fewer : ((history.index.filter opts.wanted ++ history.archived).map TaskRun.id).Nodup :=
    distinct.sublist ((List.filter_sublist.append (List.Sublist.refl _)).map _)
  obtain ⟨extra, picks, part, all⟩ := walkSegments_spec whole.placed start (months_newestFirst history) fewer
  obtain ⟨missing, split⟩ := part.exists_perm_append
  have page : history.readRunsPage opts = pageOf opts.pageLimit
      (history.walkSegments opts before history.listRunSegmentMonths (history.index.filter opts.wanted)).1
      (history.index.filter opts.wanted ++ extra) := by
    rw [readRunsPage, start, hot]
    dsimp only
    rw [picks]
  obtain ⟨rest, paged⟩ := pageOf_spec opts.pageLimit_pos
    (history.walkSegments opts before history.listRunSegmentMonths (history.index.filter opts.wanted)).1
    (history.index.filter opts.wanted ++ extra)
  rw [← page] at paged
  have unread (run : TaskRun) (among : run ∈ missing) :
      0 < (history.walkSegments opts before history.listRunSegmentMonths (history.index.filter opts.wanted)).1 ∧
        ∃ bound, run.startedAt < bound ∧ opts.pageLimit ≤
          (history.index.filter opts.wanted ++ extra).countP fun other => bound ≤ other.startedAt := by
    obtain ⟨archived, wanted⟩ := List.mem_filter.mp (split.mem_iff.mpr (List.mem_append_right _ among))
    refine (all run archived wanted).resolve_left fun picked => ?_
    have once : (extra ++ missing).Nodup := by
      rw [← split.nodup_iff]
      exact (List.Nodup.of_map _ (distinct.sublist ((List.sublist_append_right ..).map _))).filter _
    exact (List.nodup_append.mp once).2.2 run picked run among rfl
  refine ⟨rest ++ missing, ?_, paged.newest, ?_, ?_⟩
  · rw [allRuns, List.filter_append, ← List.append_assoc]
    refine (paged.parts.append_right missing).trans ?_
    rw [List.append_assoc]
    exact split.symm.append_left _
  · intro stops
    rw [paged.ends stops, List.nil_append]
    apply List.eq_nil_iff_forall_not_mem.mpr
    intro run among
    obtain ⟨more, bound, -, full⟩ := unread run among
    have some' : history.index.filter opts.wanted ++ extra ≠ [] := by
      intro none
      rw [none] at full
      exact absurd opts.pageLimit_pos (by simpa using full)
    have goesOn := paged.goesOn more some'
    rw [stops] at goesOn
    cases goesOn
  · intro last cursor
    obtain ⟨some', newer, own, older, reach⟩ := paged.cursor last cursor
    refine ⟨some', newer, own, fun run among => ?_⟩
    rcases List.mem_append.mp among with left | unpicked
    · exact older run left
    · obtain ⟨-, bound, before', full⟩ := unread run unpicked
      exact before'.trans_le ((reach bound).mpr ((Nat.min_le_left ..).trans full))

theorem Reads.rest_perm (reads : Reads wanted page rest) (cursor : page.nextBefore = some last) :
    rest.Perm (wanted.filter fun run => run.startedAt < last) := by
  obtain ⟨-, newer, -, older⟩ := reads.cursor last cursor
  have parts := reads.parts.filter fun run => decide (run.startedAt < last)
  have none : page.runs.filter (fun run => decide (run.startedAt < last)) = [] := by
    rw [List.filter_eq_nil_iff]
    exact fun run among early => absurd (of_decide_eq_true early) (newer run among).not_gt
  have all : rest.filter (fun run => decide (run.startedAt < last)) = rest :=
    List.filter_eq_self.mpr fun run among => decide_eq_true (older run among)
  rwa [List.filter_append, none, all, List.nil_append] at parts

/-- The pages that follow continue a page. -/
theorem Reads.continue (reads : Reads wanted page rest) (cursor : page.nextBefore = some last)
    {pages : List RunsPage} (follows : (pages.flatMap RunsPage.runs).Perm rest)
    (newest : NewestFirst (pages.flatMap RunsPage.runs)) :
    ((page :: pages).flatMap RunsPage.runs).Perm wanted ∧ NewestFirst ((page :: pages).flatMap RunsPage.runs) := by
  obtain ⟨-, newer, -, older⟩ := reads.cursor last cursor
  rw [List.flatMap_cons]
  refine ⟨(follows.append_left _).trans reads.parts, List.pairwise_append.mpr ⟨reads.newest, newest, ?_⟩⟩
  intro run among other behind
  exact ((older other (follows.mem_iff.mp behind)).trans_le (newer run among)).le

/-- The wanted runs before an earlier place are those of a later place that started before it. -/
theorem wanted_earlier (runs : List TaskRun) (opts : ReadRunsOptions) (earlier : last ≤ before) :
    (runs.filter ({ opts with before := some before } : ReadRunsOptions).wanted).filter
        (fun run => run.startedAt < last) =
      runs.filter ({ opts with before := some last } : ReadRunsOptions).wanted := by
  rw [List.filter_filter]
  apply List.filter_congr
  intro run _
  rw [ReadRunsOptions.wanted, ReadRunsOptions.wanted]
  by_cases early : run.startedAt < last
  · simp [early, early.trans_le earlier, ReadRunsOptions.matchesRun]
  · simp [early]

/-- The pages from a place on hold every wanted run before it once. -/
theorem Whole.readPages_before (whole : history.Whole) (opts : ReadRunsOptions) {fuel : Nat}
    (enough : (history.allRuns.filter ({ opts with before := some before } : ReadRunsOptions).wanted).length < fuel) :
    ∃ pages, history.readPages opts fuel (some before) = some pages ∧ (pages.flatMap RunsPage.runs).Perm
      (history.allRuns.filter ({ opts with before := some before } : ReadRunsOptions).wanted) ∧
      NewestFirst (pages.flatMap RunsPage.runs) := by
  induction fuel generalizing before with
  | zero => exact absurd enough (Nat.not_lt_zero _)
  | succ fuel ih =>
      have start : ({ opts with before := some before } : ReadRunsOptions).before = some before := rfl
      obtain ⟨rest, reads⟩ := whole.laterPage start
      rw [readPages]
      cases cursor : (history.readRunsPage { opts with before := some before }).nextBefore with
      | none =>
          refine ⟨_, rfl, ?_, ?_⟩
          · have parts := reads.parts
            rw [reads.ends cursor, List.append_nil] at parts
            simpa using parts
          · simpa using reads.newest
      | some last =>
          obtain ⟨some', newer, ⟨own, among, same⟩, -⟩ := reads.cursor last cursor
          have earlier : last < before := by
            have wanted := (List.mem_filter.mp (reads.parts.mem_iff.mp (List.mem_append_left _ among))).2
            rw [ReadRunsOptions.wanted] at wanted
            simp only [Option.all_some, Bool.and_eq_true, decide_eq_true_eq] at wanted
            exact same ▸ wanted.1
          have left := reads.rest_perm cursor
          rw [wanted_earlier _ opts earlier.le] at left
          have fewer : rest.length < fuel := by
            have parts := reads.parts.length_eq
            rw [List.length_append] at parts
            have := List.length_pos_iff.mpr some'
            omega
          obtain ⟨pages, read, follows, newest⟩ := ih (left.length_eq ▸ fewer)
          dsimp only
          rw [read]
          exact ⟨_, rfl, reads.continue cursor (follows.trans left.symm) newest⟩

/-- The pages from the first one on hold every matching run once, newest first. -/
def ReadsAll (history : RunHistory) (opts : ReadRunsOptions) : Prop :=
  ∃ pages, history.readPages opts (history.allRuns.length + 1) none = some pages ∧
    (pages.flatMap RunsPage.runs).Perm (history.allRuns.filter opts.matchesRun) ∧
    NewestFirst (pages.flatMap RunsPage.runs)

/-- Every matching archived run started before the last run of the first page, which the hot index alone fills. -/
def FirstPageNewer (opts : ReadRunsOptions) (hot archived : List TaskRun) : Prop :=
  ∀ run ∈ archived, opts.matchesRun run = true → hot.filter opts.matchesRun ≠ [] ∧
    min opts.pageLimit (hot.filter opts.matchesRun).length ≤
      (hot.filter opts.matchesRun).countP fun other => run.startedAt < other.startedAt

instance (opts : ReadRunsOptions) (hot archived : List TaskRun) : Decidable (FirstPageNewer opts hot archived) := by
  unfold FirstPageNewer
  infer_instance

/-- The first page is cut from the matching runs of the hot index. -/
theorem Whole.firstPage (whole : history.Whole) (opts : ReadRunsOptions) :
    ∃ unread rest, PageOf opts.pageLimit unread (history.index.filter opts.matchesRun)
      (history.readRunsPage { opts with before := none }) rest ∧
      ((∃ run ∈ history.archived, opts.matchesRun run = true) → 0 < unread) := by
  have wanted : ({ opts with before := none } : ReadRunsOptions).wanted = opts.matchesRun := by
    funext run
    rw [ReadRunsOptions.wanted]
    rfl
  let unread := (history.listRunSegmentMonths.filter fun month =>
    opts.since.all fun since => decide (since < monthEndMs month)).length
  have page : history.readRunsPage { opts with before := none } =
      pageOf opts.pageLimit unread (history.index.filter opts.matchesRun) := by
    rw [readRunsPage, whole.hot, wanted]
    rfl
  obtain ⟨rest, paged⟩ := pageOf_spec opts.pageLimit_pos unread (history.index.filter opts.matchesRun)
  refine ⟨unread, rest, page ▸ paged, ?_⟩
  rintro ⟨run, among, matching⟩
  obtain ⟨month, listed, inside⟩ := mem_runsOf.mp among
  have closes := started_before_end (whole.placed month run inside)
  refine List.length_pos_of_mem (List.mem_filter.mpr ⟨listed, ?_⟩)
  cases given : opts.since with
  | none => rfl
  | some since =>
      rw [ReadRunsOptions.matchesRun, given] at matching
      simp only [Option.all_some, Bool.and_eq_true, decide_eq_true_eq] at matching ⊢
      omega

/-- No run is both in the hot index and archived. -/
theorem Whole.apart (whole : history.Whole) (hot : run ∈ history.index) (archived : run ∈ history.archived) :
    False := by
  have distinct := whole.distinct
  rw [allRuns, List.map_append, List.nodup_append] at distinct
  exact distinct.2.2 run.id (List.mem_map_of_mem hot) run.id (List.mem_map_of_mem archived) rfl

/-- Following the pages from the first one reads all, exactly when the first page is newer than the archive. -/
theorem Whole.readsAll_iff (whole : history.Whole) (opts : ReadRunsOptions) :
    history.ReadsAll opts ↔ FirstPageNewer opts history.index history.archived := by
  obtain ⟨unread, left, paged, more⟩ := whole.firstPage opts
  have matching : history.allRuns.filter opts.matchesRun =
      history.index.filter opts.matchesRun ++ history.archived.filter opts.matchesRun := List.filter_append ..
  have older {last : Nat} : history.allRuns.filter ({ opts with before := some last } : ReadRunsOptions).wanted =
      (history.allRuns.filter opts.matchesRun).filter fun run => run.startedAt < last := by
    rw [List.filter_filter]
    rfl
  have enough {last : Nat} (cursor : (history.readRunsPage { opts with before := none }).nextBefore = some last) :
      (history.allRuns.filter ({ opts with before := some last } : ReadRunsOptions).wanted).length <
        history.allRuns.length := by
    obtain ⟨-, -, ⟨run, among, same⟩, -⟩ := paged.cursor last cursor
    have own := (List.mem_filter.mp (paged.parts.mem_iff.mp (List.mem_append_left _ among))).1
    rw [List.length_filter_lt_length_iff_exists]
    refine ⟨run, List.mem_append_left _ own, ?_⟩
    rw [ReadRunsOptions.wanted, same]
    simp
  rw [ReadsAll, readPages]
  constructor
  · rintro ⟨pages, read, parts, -⟩ run among wanted
    have read' : run ∈ pages.flatMap RunsPage.runs :=
      parts.mem_iff.mpr (List.mem_filter.mpr ⟨List.mem_append_right _ among, wanted⟩)
    have unpicked : run ∉ (history.readRunsPage { opts with before := none }).runs := by
      intro picked
      exact whole.apart (List.mem_filter.mp (paged.parts.mem_iff.mp (List.mem_append_left _ picked))).1 among
    cases cursor : (history.readRunsPage { opts with before := none }).nextBefore with
    | none =>
        rw [cursor] at read
        obtain rfl := Option.some.inj read
        exact absurd (by simpa using read') unpicked
    | some last =>
        rw [cursor] at read
        obtain ⟨later, follows, all, -⟩ := whole.readPages_before opts (enough cursor)
        dsimp only at read
        rw [follows] at read
        obtain rfl := Option.some.inj read
        obtain ⟨some', -, -, -, reach⟩ := paged.cursor last cursor
        have behind : run ∈ later.flatMap RunsPage.runs := by
          rw [List.flatMap_cons] at read'
          exact (List.mem_append.mp read').resolve_left unpicked
        have early := (List.mem_filter.mp (all.mem_iff.mp behind)).2
        rw [ReadRunsOptions.wanted] at early
        simp only [Option.all_some, Bool.and_eq_true, decide_eq_true_eq] at early
        refine ⟨fun none => some' ?_, (reach (run.startedAt + 1)).mp early.1⟩
        have parts := paged.parts
        rw [none, List.perm_nil, List.append_eq_nil_iff] at parts
        exact parts.1
  · intro newer
    cases cursor : (history.readRunsPage { opts with before := none }).nextBefore with
    | none =>
        refine ⟨_, rfl, ?_, by simpa using paged.newest⟩
        have none' : history.archived.filter opts.matchesRun = [] := by
          rw [List.filter_eq_nil_iff]
          intro run among wanted
          have goesOn := paged.goesOn (more ⟨run, among, wanted⟩) (newer run among wanted).1
          rw [cursor] at goesOn
          cases goesOn
        have parts := paged.parts
        rw [paged.ends cursor, List.append_nil] at parts
        rw [matching, none', List.append_nil]
        simpa using parts
    | some last =>
        obtain ⟨some', newest, own, behind, reach⟩ := paged.cursor last cursor
        obtain ⟨later, follows, all, sorted⟩ := whole.readPages_before opts (enough cursor)
        have archive : ∀ run ∈ history.archived.filter opts.matchesRun, run.startedAt < last := by
          intro run among
          obtain ⟨inside, wanted⟩ := List.mem_filter.mp among
          exact (reach (run.startedAt + 1)).mpr (newer run inside wanted).2
        have reads : Reads (history.allRuns.filter opts.matchesRun) (history.readRunsPage { opts with before := none })
            (left ++ history.archived.filter opts.matchesRun) := by
          refine ⟨?_, paged.newest, fun none => (by rw [cursor] at none; cases none), fun start same => ?_⟩
          · rw [matching, ← List.append_assoc]
            exact paged.parts.append_right _
          · obtain rfl := Option.some.inj (cursor.symm.trans same)
            refine ⟨some', newest, own, fun run among => ?_⟩
            rcases List.mem_append.mp among with hot | archived
            · exact behind run hot
            · exact archive run archived
        have rest := reads.rest_perm cursor
        rw [older] at all
        dsimp only
        rw [follows]
        exact ⟨_, rfl, reads.continue cursor (all.trans rest.symm) sorted⟩

end RunHistory

end NimbleBrain.Tasks

/- The pages of a task's run history hold every matching run once, as long as the first page is newer than the archive. -/

namespace NimbleBrain.Tasks

open Library

namespace RunHistory

/-- The history of runs in the order in which they were recorded. -/
def historyOf (runs : List TaskRun) : RunHistory := runs.foldl appendRun {}

/-- The runs that stay in the hot index. -/
def hotRuns (runs : List TaskRun) : List TaskRun := runs.drop (runs.length - maxRunLines)

def rolledRuns (runs : List TaskRun) : List TaskRun := runs.take (runs.length - maxRunLines)

/-- The newest lines are hot, and the older ones are in the month of their start. -/
theorem historyOf_files (runs : List TaskRun) :
    (historyOf runs).index = hotRuns runs ∧
      ∀ month, ((historyOf runs).segment month).index = (rolledRuns runs).filter fun run => archiveSlotOf run = month := by
  induction runs using List.reverseRecOn with
  | nil => exact ⟨rfl, fun _ => rfl⟩
  | append_singleton runs run ih =>
      obtain ⟨index, segments⟩ := ih
      have step : historyOf (runs ++ [run]) = (historyOf runs).appendRun run := by
        rw [historyOf, List.foldl_append]
        rfl
      obtain ⟨hot, rolled⟩ := (historyOf runs).appendRun_files run
      rw [index, hotRuns] at hot rolled
      -- The lines of the index are the end of the list of all runs.
      have whole : runs.drop (runs.length - maxRunLines) ++ [run] =
          (runs ++ [run]).drop (runs.length - maxRunLines) :=
        (List.drop_append_of_le_length (Nat.sub_le ..)).symm
      rw [whole] at hot rolled
      have spare : runs.length - maxRunLines +
          (((runs ++ [run]).drop (runs.length - maxRunLines)).length - maxRunLines) =
            (runs ++ [run]).length - maxRunLines := by
        rw [List.length_drop, List.length_append, List.length_singleton]
        omega
      rw [step, hotRuns, rolledRuns, ← spare]
      generalize ((runs ++ [run]).drop (runs.length - maxRunLines)).length - maxRunLines = count at hot rolled
      refine ⟨by rw [hot, List.drop_drop], fun month => ?_⟩
      rw [rolled month, segments month, rolledRuns, List.take_add, List.filter_append,
        List.take_append_of_le_length (Nat.sub_le ..)]

theorem listRunSegmentMonths_nodup (history : RunHistory) : history.listRunSegmentMonths.Nodup :=
  (List.perm_insertionSort _ _).nodup_iff.mpr history.archive.distinct

variable {runs : List TaskRun}

/-- The archive holds the rolled runs. -/
theorem archived_perm (distinct : (runs.map TaskRun.id).Nodup) :
    (historyOf runs).archived.Perm (rolledRuns runs) := by
  obtain ⟨-, segments⟩ := historyOf_files runs
  have rolled : (rolledRuns runs).Nodup :=
    List.Nodup.of_map TaskRun.id (distinct.sublist ((List.take_sublist _ _).map _))
  rw [List.perm_ext_iff_of_nodup _ rolled]
  · intro run
    rw [archived, mem_runsOf]
    constructor
    · rintro ⟨month, -, inside⟩
      rw [segments month] at inside
      exact List.mem_of_mem_filter inside
    · intro among
      have inside : run ∈ ((historyOf runs).segment (archiveSlotOf run)).index := by
        rw [segments]
        exact List.mem_filter.mpr ⟨among, decide_eq_true rfl⟩
      refine ⟨archiveSlotOf run, ?_, inside⟩
      by_contra unlisted
      rw [segment_of_unlisted unlisted] at inside
      cases inside
  · rw [archived, runsOf, List.nodup_flatMap]
    refine ⟨fun month _ => segments month ▸ rolled.filter _, ?_⟩
    apply (listRunSegmentMonths_nodup _).imp
    intro first second apart run one two
    dsimp only at one two
    rw [segments, List.mem_filter, decide_eq_true_eq] at one two
    exact apart (one.2.symm.trans two.2)

theorem allRuns_perm (distinct : (runs.map TaskRun.id).Nodup) :
    (historyOf runs).allRuns.Perm runs := by
  rw [allRuns, (historyOf_files runs).1]
  refine ((archived_perm distinct).append_left _).trans (List.perm_append_comm.trans ?_)
  rw [hotRuns, rolledRuns, List.take_append_drop]

theorem whole_historyOf (distinct : (runs.map TaskRun.id).Nodup) :
    (historyOf runs).Whole where
  placed month run inside := by
    rw [(historyOf_files runs).2, List.mem_filter, decide_eq_true_eq] at inside
    exact inside.2
  distinct := ((allRuns_perm distinct).map TaskRun.id).nodup_iff.mpr distinct

/-- Following the pages of the recorded runs reads every matching one once, newest first. -/
def PagesAll (opts : ReadRunsOptions) (runs : List TaskRun) : Prop :=
  ∃ pages, (historyOf runs).readPages opts (runs.length + 1) none = some pages ∧
    (pages.flatMap RunsPage.runs).Perm (runs.filter opts.matchesRun) ∧ NewestFirst (pages.flatMap RunsPage.runs)

theorem pagesAll_iff_readsAll (opts : ReadRunsOptions) (distinct : (runs.map TaskRun.id).Nodup) :
    PagesAll opts runs ↔ (historyOf runs).ReadsAll opts := by
  have same := allRuns_perm distinct
  rw [PagesAll, ReadsAll, same.length_eq]
  constructor
  · rintro ⟨pages, read, all, newest⟩
    exact ⟨pages, read, all.trans (same.filter _).symm, newest⟩
  · rintro ⟨pages, read, all, newest⟩
    exact ⟨pages, read, all.trans (same.filter _), newest⟩

theorem firstPageNewer_historyOf (opts : ReadRunsOptions) (distinct : (runs.map TaskRun.id).Nodup) :
    FirstPageNewer opts (historyOf runs).index (historyOf runs).archived ↔
      FirstPageNewer opts (hotRuns runs) (rolledRuns runs) := by
  rw [FirstPageNewer, FirstPageNewer, (historyOf_files runs).1]
  exact forall_congr' fun run => imp_congr_left (archived_perm distinct).mem_iff

/-- The pages hold every matching run, exactly when every rolled one started before the end of the first page. -/
theorem pages_complete_iff (opts : ReadRunsOptions) {runs : List TaskRun}
    (distinct : (runs.map TaskRun.id).Nodup) :
    PagesAll opts runs ↔ FirstPageNewer opts (hotRuns runs) (rolledRuns runs) :=
  (pagesAll_iff_readsAll opts distinct).trans
    (((whole_historyOf distinct).readsAll_iff opts).trans (firstPageNewer_historyOf opts distinct))

/-- One run more than the hot index holds, each started a second after the one before it. -/
def steadyRuns : List TaskRun :=
  (List.range 1001).map fun place => { id := place, startedAt := 1000 * place, status := .success }

theorem pages_complete_steady : PagesAll { limit := some 20 } steadyRuns := by
  have distinct : (steadyRuns.map TaskRun.id).Nodup := by
    rw [steadyRuns, List.map_map]
    exact (List.nodup_range).map fun _ _ same => same
  exact (pages_complete_iff _ distinct).mpr (by decide +kernel)

/-- The only failure is older than the runs of the hot index. -/
def hiddenFailure : List TaskRun :=
  { id := 0, status := .failure } ::
    (List.range 1000).map fun place => { id := place + 1, startedAt := 1000 * (place + 1), status := .success }

/-- A read of the failures shows an empty first page without a next one. -/
theorem pages_miss_failure :
    (hiddenFailure.map TaskRun.id).Nodup ∧ ¬ PagesAll { status := some .failure } hiddenFailure := by
  have distinct : (hiddenFailure.map TaskRun.id).Nodup := by
    rw [hiddenFailure, List.map_cons, List.map_map, List.nodup_cons]
    constructor
    · simp
    · exact (List.nodup_range).map fun _ _ same => Nat.succ.inj same
  refine ⟨distinct, fun all => ?_⟩
  have newer := (firstPageNewer_historyOf _ distinct).mp
    (((whole_historyOf distinct).readsAll_iff _).mp ((pagesAll_iff_readsAll _ distinct).mp all))
  exact absurd newer (by decide +kernel)

end RunHistory

end NimbleBrain.Tasks
