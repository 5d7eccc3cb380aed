import Mathlib.Data.List.Infix
import Mathlib.Data.List.Sort
import NimbleBrain.Library.Segments
import NimbleBrain.Notifications.Types

/- The inbox keeps its items in one file a day. -/

namespace NimbleBrain.Notifications

open Library

/-- What the host computes from texts and clocks. A text that is no date gives no time. -/
structure Host where
  parseDate : String → Option Int
  toLowerCase : String → String
  cutoffDay : Moment → Int

def dayMs : Int := 86400000

/-- The day whose file takes an item. -/
def dayOf (moment : Moment) : Int := moment / dayMs

inductive NotificationOrder where
  | asc | desc
  deriving DecidableEq

structure NotificationListOptions where
  unreadOnly : Bool := false
  level : Option NotificationLevel := none
  source : Option String := none
  after : Option Nat := none
  before : Option Nat := none
  ids : Option (List String) := none
  since : Option String := none
  query : Option String := none
  limit : Option Int := none
  order : Option NotificationOrder := none
  deriving DecidableEq

/-- What the store tells the event stream. -/
inductive Announcement where
  | created (item : Notification) (presentation : NotificationPresentation) (unread : Nat)
  | read (ids : List String) (unread : Nat)
  deriving DecidableEq

def Announcement.unread : Announcement → Nat
  | .created _ _ unread => unread
  | .read _ unread => unread

structure NotificationStore where
  workspaceId : String
  files : Segments Int Notification
  deriving DecidableEq

variable (host : Host)

def contains (text needle : String) : Bool := decide (needle.toList <:+: text.toList)

def inPosition (item : Notification) (options : NotificationListOptions) : Bool :=
  if options.after.any (item.seq ≤ ·) then false
  else if options.before.any (· ≤ item.seq) then false
  else options.ids.all (notificationId item ∈ ·)

def matchesQuery (item : Notification) (query : Option String) : Bool :=
  match nonEmpty query with
  | none => true
  | some query =>
      let needle := host.toLowerCase query
      contains (host.toLowerCase (notificationPresentation item.envelope).title) needle ||
        contains (host.toLowerCase item.envelope.name) needle

def atLevel (item : Notification) (level : Option NotificationLevel) : Bool :=
  level.all fun level => level.rank ≤ (notificationPresentation item.envelope).level.rank

/-- An item whose time cannot be read is not before any time. -/
def isBefore (item : Notification) (since : String) : Bool :=
  match host.parseDate item.envelope.timestamp, host.parseDate since with
  | some time, some since => time < since
  | _, _ => false

def matchesFilters (item : Notification) (options : NotificationListOptions) : Bool :=
  if options.unreadOnly && item.readAt.isSome then false
  else if (nonEmpty options.source).any (item.source ≠ ·) then false
  else if options.since.any (isBefore host item) then false
  else inPosition item options && matchesQuery host item options.query && atLevel item options.level

def notificationListDefaultLimit : Nat := 20

def notificationListMaxLimit : Nat := 100

/-- A limit that is no finite number is absent. -/
def clampLimit (limit : Option Int) : Nat :=
  match limit with
  | none => notificationListDefaultLimit
  | some limit => max 1 (min notificationListMaxLimit limit.toNat)

namespace NotificationStore

variable (store : NotificationStore)

/-- Every retained item in the order of its sequence number. -/
def loadAll : List Notification :=
  store.files.items.insertionSort fun first second => first.seq ≤ second.seq

def find? (source eventId : String) : Option Notification :=
  store.files.items.find? fun item => item.source = source ∧ item.envelope.eventId = eventId

/-- Only the newest day with items is asked for the highest number. -/
def nextSeq : Nat := store.files.newest.foldl (fun highest item => max highest item.seq) 0 + 1

def unreadCount : Nat := store.loadAll.countP fun item => item.readAt.isNone

/-- A file that cannot be removed stays. -/
def prune (now : Moment) (stuck : List Int) : NotificationStore :=
  { store with files := store.files.keep fun day => host.cutoffDay now ≤ day ∨ day ∈ stuck }

structure AppendResult where
  item : Notification
  created : Bool
  deriving DecidableEq

def stamp (source : String) (envelope : NotificationEnvelope) (effectiveLevel : Option NotificationLevel)
    (now : Moment) : Notification where
  envelope := envelope
  source := source
  workspaceId := store.workspaceId
  receivedAt := now
  seq := store.nextSeq
  effectiveLevel := effectiveLevel.filter (· ≠ (notificationPresentation envelope).level)

/-- The clock is read for the item, and again for the files that have expired. -/
def append (source : String) (envelope : NotificationEnvelope) (effectiveLevel : Option NotificationLevel)
    (now later : Moment) (stuck : List Int) : NotificationStore × AppendResult × Option Announcement :=
  match store.find? source envelope.eventId with
  | some existing => (store, ⟨existing, false⟩, none)
  | none =>
      let item := store.stamp source envelope effectiveLevel now
      let pushed := { store with files := store.files.push (dayOf now) item }
      let pruned := pushed.prune host later stuck
      (pruned, ⟨item, true⟩, some (.created item (notificationPresentation envelope) pruned.unreadCount))

structure Listing where
  items : List Notification := []
  unread : Nat := 0
  hasMore : Bool := false
  deriving DecidableEq

/-- One item of the loop over all of them. -/
def Listing.visit (options : NotificationListOptions) (limit : Nat) (listing : Listing) (item : Notification) :
    Listing :=
  let listing := if item.readAt.isNone then { listing with unread := listing.unread + 1 } else listing
  if !matchesFilters host item options then listing
  else if listing.items.length < limit then { listing with items := listing.items ++ [item] }
  else { listing with hasMore := true }

def listWithUnread (options : NotificationListOptions) : Listing :=
  let all := if options.order = some .asc then store.loadAll else store.loadAll.reverse
  all.foldl (Listing.visit host options (clampLimit options.limit)) {}

/-- The marking of one file: its items, those that changed, and how many stay unread. -/
structure Marking where
  items : List Notification := []
  changed : List Notification := []
  unread : Nat := 0
  deriving DecidableEq

def markItem (wanted : List (String × String)) (readBy : Option String) (now : Moment) (marking : Marking)
    (item : Notification) : Marking :=
  if item.readAt.isSome then { marking with items := marking.items ++ [item] }
  else if item.pair ∉ wanted then
    { marking with items := marking.items ++ [item], unread := marking.unread + 1 }
  else
    let read := { item with readAt := some now, readBy := (nonEmpty readBy).or item.readBy }
    { marking with items := marking.items ++ [read], changed := marking.changed ++ [read] }

def markFile (wanted : List (String × String)) (readBy : Option String) (now : Moment)
    (items : List Notification) : Marking :=
  items.foldl (markItem wanted readBy now) {}

/-- The items that a mark changed are announced with the count of those that stay unread. -/
def markRead (wanted : List (String × String)) (readBy : Option String) (now : Moment) :
    NotificationStore × List Notification × Option Announcement :=
  if wanted = [] then (store, [], none)
  else
    let markings := store.files.list.map fun file => markFile wanted readBy now file.2
    let changed := markings.flatMap Marking.changed
    let unread := (markings.map Marking.unread).sum
    let marked :=
      { store with
        files := store.files.mapItems fun items =>
          let marking := markFile wanted readBy now items
          if marking.changed = [] then items else marking.items }
    (marked, changed, if changed = [] then none else some (.read (changed.map notificationId) unread))

/-- A row replaces the row of its place. -/
def mergeRow (rows : List DeliveryRecord) (row : DeliveryRecord) : List DeliveryRecord :=
  match rows.findIdx? fun old => old.slot = row.slot with
  | none => rows ++ [row]
  | some place => rows.set place row

def mergeRows (rows added : List DeliveryRecord) : List DeliveryRecord := added.foldl mergeRow rows

/-- The first item of the event takes the rows. -/
def recordIn (source eventId : String) (rows : List DeliveryRecord) : List Notification → List Notification
  | [] => []
  | item :: rest =>
      if item.source = source ∧ item.envelope.eventId = eventId then
        { item with deliveries := mergeRows item.deliveries rows } :: rest
      else item :: recordIn source eventId rows rest

/-- Only the first file that has the item is written. -/
def recordDeliveries (source eventId : String) (rows : List DeliveryRecord) :
    NotificationStore × Option Notification :=
  if rows = [] then (store, store.find? source eventId)
  else
    let recorded :=
      { store with
        files := store.files.updateFirst
          (fun items => items.any fun item => item.source = source ∧ item.envelope.eventId = eventId)
          (recordIn source eventId rows) }
    (recorded, recorded.find? source eventId)

end NotificationStore

end NimbleBrain.Notifications

/- What each operation of the inbox does to the items that it keeps. -/

namespace NimbleBrain.Notifications

open Library

/-- The item is the same event at the same place. It may have been read or delivered since. -/
structure Notification.Same (before after : Notification) : Prop where
  envelope : after.envelope = before.envelope
  source : after.source = before.source
  seq : after.seq = before.seq
  unread : after.readAt = none → before.readAt = none

theorem Notification.Same.refl (item : Notification) : item.Same item := ⟨rfl, rfl, rfl, id⟩

theorem Notification.Same.pair {before after : Notification} (same : before.Same after) :
    after.pair = before.pair := by
  rw [Notification.pair, Notification.pair, same.source, same.envelope]

variable (host : Host) (store : NotificationStore)

namespace NotificationStore

section Marks

variable (wanted : List (String × String)) (readBy : Option String) (now : Moment)

def touches (item : Notification) : Bool := item.readAt.isNone && decide (item.pair ∈ wanted)

def marked (item : Notification) : Notification :=
  if touches wanted item then { item with readAt := some now, readBy := (nonEmpty readBy).or item.readBy } else item

theorem markItem_eq (marking : Marking) (item : Notification) :
    markItem wanted readBy now marking item =
      { items := marking.items ++ [marked wanted readBy now item]
        changed := marking.changed ++ if touches wanted item then [marked wanted readBy now item] else []
        unread := marking.unread + if (marked wanted readBy now item).readAt.isNone then 1 else 0 } := by
  unfold markItem marked touches
  cases read : item.readAt with
  | some time => simp [read]
  | none => by_cases listed : item.pair ∈ wanted <;> simp [read, listed]

theorem markFile_eq (items : List Notification) :
    markFile wanted readBy now items =
      { items := items.map (marked wanted readBy now)
        changed := (items.filter (touches wanted)).map (marked wanted readBy now)
        unread := (items.map (marked wanted readBy now)).countP fun item => item.readAt.isNone } := by
  have folded : ∀ marking : Marking, items.foldl (markItem wanted readBy now) marking =
      { items := marking.items ++ items.map (marked wanted readBy now)
        changed := marking.changed ++ (items.filter (touches wanted)).map (marked wanted readBy now)
        unread := marking.unread +
          (items.map (marked wanted readBy now)).countP fun item => item.readAt.isNone } := by
    induction items with
    | nil => intro marking; simp
    | cons item rest ih =>
        intro marking
        rw [List.foldl_cons, ih, markItem_eq]
        cases touched : touches wanted item <;>
          simp [List.countP_cons, Nat.add_assoc, Nat.add_comm, touched]
  simpa [markFile] using folded {}

theorem marked_same (item : Notification) : item.Same (marked wanted readBy now item) := by
  unfold marked
  split
  · exact ⟨rfl, rfl, rfl, fun unread => nomatch unread⟩
  · exact .refl item

/-- A file without a change is left, and is as if it had been written. -/
theorem markFile_written (items : List Notification) :
    (if (markFile wanted readBy now items).changed = [] then items else (markFile wanted readBy now items).items) =
      items.map (marked wanted readBy now) := by
  rw [markFile_eq]
  dsimp only
  split
  · rename_i untouched
    have same : ∀ item ∈ items, marked wanted readBy now item = item := by
      intro item member
      rw [List.map_eq_nil_iff, List.filter_eq_nil_iff] at untouched
      exact if_neg (untouched item member)
    rw [List.map_congr_left same, List.map_id']
  · rfl

theorem markRead_items : (store.markRead wanted readBy now).1.files.items =
    if wanted = [] then store.files.items else store.files.items.map (marked wanted readBy now) := by
  unfold markRead
  split
  · rfl
  · dsimp only
    rw [Segments.items_mapItems, Segments.items, List.map_flatMap]
    exact List.flatMap_congr fun file _ => markFile_written wanted readBy now file.2

theorem markRead_kept :
    List.Forall₂ Notification.Same store.files.items (store.markRead wanted readBy now).1.files.items := by
  rw [markRead_items]
  split
  · exact List.forall₂_same.mpr fun item _ => .refl item
  · exact List.forall₂_map_right_iff.mpr (List.forall₂_same.mpr fun item _ => marked_same wanted readBy now item)

end Marks

/-- The order of the items does not change how many are unread. -/
theorem unreadCount_eq : store.unreadCount = store.files.items.countP fun item => item.readAt.isNone :=
  (List.perm_insertionSort ..).countP_eq _

/-- A mark announces the number of the items that stay unread. -/
theorem markRead_unread (wanted : List (String × String)) (readBy : Option String) (now : Moment) :
    ∀ announced ∈ (store.markRead wanted readBy now).2.2,
      announced.unread = (store.markRead wanted readBy now).1.unreadCount := by
  intro announced member
  rw [unreadCount_eq, markRead_items]
  unfold markRead at member
  split at member
  · cases member
  · rename_i some_wanted
    rw [if_neg some_wanted]
    dsimp only at member
    split at member
    · cases member
    · obtain rfl := Option.some.inj member
      dsimp only [Announcement.unread]
      rw [Segments.items, List.map_flatMap, List.countP_flatMap, List.map_map]
      refine congrArg List.sum (List.map_congr_left fun file _ => ?_)
      simp [markFile_eq]

section Rows

variable (source eventId : String) (rows : List DeliveryRecord)

theorem recordIn_kept (items : List Notification) :
    List.Forall₂ Notification.Same items (recordIn source eventId rows items) := by
  induction items with
  | nil => exact .nil
  | cons item rest ih =>
      rw [recordIn]
      split
      · exact .cons ⟨rfl, rfl, rfl, id⟩ (List.forall₂_same.mpr fun item _ => .refl item)
      · exact .cons (.refl item) ih

theorem recordDeliveries_kept :
    List.Forall₂ Notification.Same store.files.items (store.recordDeliveries source eventId rows).1.files.items := by
  unfold recordDeliveries
  split
  · exact List.forall₂_same.mpr fun item _ => .refl item
  · exact Segments.forall₂_items_updateFirst .refl (recordIn_kept source eventId rows)

end Rows

theorem le_foldl_max (items : List Notification) (highest : Nat) :
    highest ≤ items.foldl (fun highest item => max highest item.seq) highest ∧
      ∀ item ∈ items, item.seq ≤ items.foldl (fun highest item => max highest item.seq) highest := by
  induction items generalizing highest with
  | nil => simp
  | cons item rest ih =>
      obtain ⟨least, later⟩ := ih (max highest item.seq)
      exact ⟨(Nat.le_max_left ..).trans least,
        List.forall_mem_cons.mpr ⟨(Nat.le_max_right ..).trans least, later⟩⟩

/-- The retained items lie in their files in the order of their numbers. -/
def InOrder : Prop := store.files.items.Pairwise fun first second => first.seq < second.seq

instance : Decidable store.InOrder := inferInstanceAs (Decidable (List.Pairwise _ _))

/-- Where the files are in order, the newest of them has the highest number. -/
theorem lt_nextSeq (ordered : store.InOrder) : ∀ item ∈ store.files.items, item.seq < store.nextSeq := by
  intro item member
  obtain ⟨earlier, split, alone⟩ := store.files.items_eq_append_newest
  have inNewest : ∀ item ∈ store.files.newest, item.seq < store.nextSeq := fun item member =>
    Nat.lt_succ_of_le ((le_foldl_max _ 0).2 item member)
  rw [split] at member
  rcases List.mem_append.mp member with old | new
  · cases newest : store.files.newest with
    | nil => simp [alone newest] at old
    | cons first rest =>
        rw [InOrder, split] at ordered
        have listed : first ∈ store.files.newest := by simp [newest]
        exact ((List.pairwise_append.mp ordered).2.2 item old first listed).trans (inNewest first listed)
  · exact inNewest item new

section Pages

variable (options : NotificationListOptions)

/-- A visit adds an item that matches while there is room, and else notes that there is more. -/
theorem visit_eq (limit : Nat) (listing : Listing) (item : Notification) :
    let visited := Listing.visit host options limit listing item
    (matchesFilters host item options = false →
        visited.items = listing.items ∧ visited.hasMore = listing.hasMore) ∧
      (matchesFilters host item options = true → listing.items.length < limit →
        visited.items = listing.items ++ [item] ∧ visited.hasMore = listing.hasMore) ∧
      (matchesFilters host item options = true → ¬ listing.items.length < limit →
        visited.items = listing.items ∧ visited.hasMore = true) := by
  unfold Listing.visit
  refine ⟨fun no => ?_, fun yes room => ?_, fun yes full => ?_⟩
  · cases item.readAt <;> simp [no]
  · cases item.readAt <;> simp [yes, room]
  · cases item.readAt <;> simp [yes, full]

theorem foldl_visit (limit : Nat) (all : List Notification) (listing : Listing)
    (short : listing.items.length ≤ limit) :
    let listed := all.foldl (Listing.visit host options limit) listing
    let matching := all.filter (matchesFilters host · options)
    listed.items = listing.items ++ matching.take (limit - listing.items.length) ∧
      listed.hasMore = (listing.hasMore || decide (limit - listing.items.length < matching.length)) := by
  induction all generalizing listing with
  | nil => simp
  | cons item rest ih =>
      obtain ⟨skips, adds, overflows⟩ := visit_eq host options limit listing item
      dsimp only
      rw [List.foldl_cons]
      cases found : matchesFilters host item options with
      | false =>
          obtain ⟨items, more⟩ := skips found
          obtain ⟨listed, hasMore⟩ := ih (Listing.visit host options limit listing item) (items.symm ▸ short)
          rw [List.filter_cons_of_neg (by simp [found]), listed, hasMore, items, more]
          exact ⟨rfl, rfl⟩
      | true =>
          rw [List.filter_cons, if_pos found]
          by_cases room : listing.items.length < limit
          · obtain ⟨items, more⟩ := adds found room
            have length : (Listing.visit host options limit listing item).items.length = listing.items.length + 1 := by
              rw [items, List.length_append, List.length_singleton]
            obtain ⟨listed, hasMore⟩ := ih (Listing.visit host options limit listing item) (by omega)
            have left : limit - listing.items.length = (limit - (listing.items.length + 1)) + 1 := by omega
            rw [listed, hasMore, length, items, more, left, List.take_succ_cons, List.length_cons]
            refine ⟨by simp, ?_⟩
            congr 1
            exact decide_eq_decide.mpr (by omega)
          · obtain ⟨items, more⟩ := overflows found room
            have length : (Listing.visit host options limit listing item).items.length = listing.items.length := by
              rw [items]
            obtain ⟨listed, hasMore⟩ := ih (Listing.visit host options limit listing item) (by omega)
            have left : limit - listing.items.length = 0 := by omega
            rw [listed, hasMore, length, items, more, left]
            simp

/-- An ascending page is the first of the matching items, and tells whether there are more. -/
theorem listWithUnread_asc (ascending : options.order = some .asc) :
    let matching := store.loadAll.filter (matchesFilters host · options)
    (store.listWithUnread host options).items = matching.take (clampLimit options.limit) ∧
      (store.listWithUnread host options).hasMore = decide (clampLimit options.limit < matching.length) := by
  unfold listWithUnread
  rw [if_pos ascending]
  simpa using foldl_visit host options (clampLimit options.limit) store.loadAll {} (Nat.zero_le _)

end Pages

theorem clampLimit_pos (limit : Option Int) : 0 < clampLimit limit := by
  unfold clampLimit
  split
  · decide
  · exact Nat.le_max_left ..

end NotificationStore

end NimbleBrain.Notifications
