import NimbleBrain.Notifications.Inbox

/- A reader that pages forward receives each retained item once, while new items come in order. -/

namespace NimbleBrain.Notifications

open Library

variable {host : Host} {filters : NotificationListOptions} {inbox : Inbox}

/-- The place of a reader only narrows its filters. -/
theorem matchesFilters_options (reader : Reader) (limit : Option Int) (item : Notification) :
    matchesFilters host item (reader.options filters limit) =
      (matchesFilters host item (unplaced filters) && !reader.after.any (item.seq ≤ ·)) := by
  unfold matchesFilters inPosition
  simp only [Reader.options, unplaced, Option.any_none]
  by_cases passed : reader.after.any (item.seq ≤ ·) = true
  · simp [passed]
  · simp [passed]
    rfl

/-- An item that matches matched before it was read or delivered. -/
theorem matchesFilters_of_same {before after : Notification} (same : before.Same after)
    (now : matchesFilters host after (unplaced filters) = true) :
    matchesFilters host before (unplaced filters) = true := by
  unfold matchesFilters at now ⊢
  split at now
  · cases now
  · rename_i unread
    have earlier : ¬ ((unplaced filters).unreadOnly && before.readAt.isSome) = true := by
      intro read
      obtain ⟨only, read⟩ := Bool.and_eq_true_iff.mp read
      cases now : after.readAt with
      | none => simp [same.unread now] at read
      | some time => simp [only, now] at unread
    have times : isBefore host after = isBefore host before := by
      funext since
      rw [isBefore, isBefore, same.envelope]
    rw [if_neg earlier]
    unfold inPosition matchesQuery atLevel notificationId at now ⊢
    rw [times, same.envelope, same.source, same.seq] at now
    exact now

/-- The numbers rise in the order of the appends, and the reader has all that it passed. -/
structure Inbox.Ordered (host : Host) (filters : NotificationListOptions) (inbox : Inbox) : Prop where
  pairs : (inbox.store.files.items.map Notification.pair).Nodup
  numbers : (inbox.store.files.items.map Notification.seq).Nodup
  ascending : (inbox.appended.map Notification.seq).Pairwise (· < ·)
  known : ∀ item ∈ inbox.store.files.items, item.seq ∈ inbox.appended.map Notification.seq
  last : ∀ appended ∈ inbox.appended, ∃ item ∈ inbox.store.files.items, appended.seq ≤ item.seq
  place : ∀ after ∈ inbox.reader.after, after ∈ inbox.appended.map Notification.seq
  passed : ∀ item ∈ inbox.reader.received, item.seq ∈ inbox.appended.map Notification.seq ∧
    ∃ after ∈ inbox.reader.after, item.seq ≤ after
  received : (inbox.reader.received.map Notification.seq).Pairwise (· < ·)
  complete : ∀ item ∈ inbox.store.files.items, matchesFilters host item (unplaced filters) = true →
    ∀ after ∈ inbox.reader.after, item.seq ≤ after → item.seq ∈ inbox.reader.received.map Notification.seq

namespace Inbox.Ordered

theorem start (workspaceId : String) :
    Ordered host filters { store := { workspaceId := workspaceId, files := .empty } } where
  pairs := by simp [Segments.items, Segments.empty]
  numbers := by simp [Segments.items, Segments.empty]
  ascending := .nil
  known := by simp [Segments.items, Segments.empty]
  last := by simp
  place := by simp
  passed := by simp
  received := .nil
  complete := by simp [Segments.items, Segments.empty]

variable {before after : List Notification}

theorem map_of_same {A : Type} {field : Notification → A} (kept : List.Forall₂ Notification.Same before after)
    (same : ∀ first second : Notification, first.Same second → field second = field first) :
    after.map field = before.map field := by
  induction kept with
  | nil => rfl
  | cons one _ ih => rw [List.map_cons, List.map_cons, same _ _ one, ih]

theorem mem_of_same (kept : List.Forall₂ Notification.Same before after) {item : Notification}
    (member : item ∈ after) : ∃ old ∈ before, old.Same item := by
  induction kept with
  | nil => cases member
  | cons one _ ih =>
      rcases List.mem_cons.mp member with rfl | later
      · exact ⟨_, List.mem_cons_self .., one⟩
      · obtain ⟨old, listed, same⟩ := ih later
        exact ⟨old, List.mem_cons_of_mem _ listed, same⟩

/-- A change of the items in their places keeps the order. -/
theorem of_kept {store : NotificationStore} {announced : List Announcement} (ordered : inbox.Ordered host filters)
    (kept : List.Forall₂ Notification.Same inbox.store.files.items store.files.items) :
    Ordered host filters { inbox with store := store, announced := announced } := by
  have pairs := map_of_same kept fun _ _ same => same.pair
  have numbers := map_of_same kept fun _ _ same => same.seq
  constructor
  · exact pairs ▸ ordered.pairs
  · exact numbers ▸ ordered.numbers
  · exact ordered.ascending
  · intro item member
    obtain ⟨old, listed, same⟩ := mem_of_same kept member
    exact same.seq ▸ ordered.known old listed
  · intro appended member
    obtain ⟨item, listed, high⟩ := ordered.last appended member
    have numbered : item.seq ∈ store.files.items.map Notification.seq := numbers ▸ List.mem_map_of_mem listed
    obtain ⟨new, listed, same⟩ := List.mem_map.mp numbered
    exact ⟨new, listed, same ▸ high⟩
  · exact ordered.place
  · exact ordered.passed
  · exact ordered.received
  · intro item member fits after place low
    obtain ⟨old, listed, same⟩ := mem_of_same kept member
    rw [same.seq] at low ⊢
    exact ordered.complete old listed (matchesFilters_of_same same fits) after place low

variable {item : Notification}

theorem exists_highest {items : List Notification} (member : item ∈ items) :
    ∃ highest ∈ items, ∀ other ∈ items, other.seq ≤ highest.seq := by
  induction items generalizing item with
  | nil => cases member
  | cons first rest ih =>
      cases rest with
      | nil => exact ⟨first, List.mem_cons_self .., by simp⟩
      | cons next more =>
          obtain ⟨highest, listed, above⟩ := ih (List.mem_cons_self ..)
          rcases Nat.le_total first.seq highest.seq with below | atMost
          · exact ⟨highest, List.mem_cons_of_mem _ listed, List.forall_mem_cons.mpr ⟨below, above⟩⟩
          · exact ⟨first, List.mem_cons_self ..,
              List.forall_mem_cons.mpr ⟨Nat.le_refl _, fun other member => (above other member).trans atMost⟩⟩

/-- A deletion keeps the order while the last item stays. -/
theorem of_prune {now : Moment} {stuck : List Int} (ordered : inbox.Ordered host filters)
    (keepsLast : inbox.store.KeepsLast host now stuck) :
    Ordered host filters { inbox with store := inbox.store.prune host now stuck } := by
  have fewer : (inbox.store.prune host now stuck).files.items.Sublist inbox.store.files.items :=
    Segments.items_keep_sublist ..
  constructor
  · exact (fewer.map _).nodup ordered.pairs
  · exact (fewer.map _).nodup ordered.numbers
  · exact ordered.ascending
  · exact fun item member => ordered.known item (fewer.subset member)
  · intro appended member
    obtain ⟨item, listed, high⟩ := ordered.last appended member
    obtain ⟨highest, found, above⟩ := exists_highest listed
    exact ⟨highest, keepsLast highest found above, high.trans (above item listed)⟩
  · exact ordered.place
  · exact ordered.passed
  · exact ordered.received
  · exact fun item member => ordered.complete item (fewer.subset member)

theorem lt_nextSeq_of_appended (ordered : inbox.Ordered host filters) (inOrder : inbox.store.InOrder) :
    ∀ number ∈ inbox.appended.map Notification.seq, number < inbox.store.nextSeq := by
  intro number member
  obtain ⟨appended, listed, rfl⟩ := List.mem_map.mp member
  obtain ⟨item, kept, high⟩ := ordered.last appended listed
  exact high.trans_lt (inbox.store.lt_nextSeq inOrder item kept)

/-- A new item takes a number above all that were given. -/
theorem of_push {source : String} {envelope : NotificationEnvelope} {effectiveLevel : Option NotificationLevel}
    {now : Moment} (ordered : inbox.Ordered host filters) (fresh : inbox.store.find? source envelope.eventId = none)
    (inOrder : inbox.store.InOrder) :
    let item := inbox.store.stamp source envelope effectiveLevel now
    Ordered host filters
      { inbox with
        store := { inbox.store with files := inbox.store.files.push (dayOf now) item }
        appended := inbox.appended ++ [item] } := by
  have above := ordered.lt_nextSeq_of_appended inOrder
  have retained := inbox.store.lt_nextSeq inOrder
  have perm := inbox.store.files.items_push (dayOf now) (inbox.store.stamp source envelope effectiveLevel now)
  have earlier : ∀ number ∈ inbox.appended.map Notification.seq,
      number ∈ (inbox.appended ++ [inbox.store.stamp source envelope effectiveLevel now]).map Notification.seq := by
    intro number member
    rw [List.map_append]
    exact List.mem_append_left _ member
  constructor
  · refine (perm.map _).nodup_iff.mpr (List.nodup_cons.mpr ⟨fun member => ?_, ordered.pairs⟩)
    obtain ⟨item, listed, same⟩ := List.mem_map.mp member
    have other := List.find?_eq_none.mp fresh item listed
    obtain ⟨sameSource, sameEvent⟩ := Prod.mk.inj same
    exact other (decide_eq_true ⟨sameSource, sameEvent⟩)
  · refine (perm.map _).nodup_iff.mpr (List.nodup_cons.mpr ⟨fun member => ?_, ordered.numbers⟩)
    obtain ⟨item, listed, same⟩ := List.mem_map.mp member
    exact absurd same (retained item listed).ne
  · dsimp only
    rw [List.map_append, List.pairwise_append]
    refine ⟨ordered.ascending, List.pairwise_singleton .., fun number member other last => ?_⟩
    obtain rfl := List.mem_singleton.mp last
    exact above number member
  · intro item member
    rcases List.mem_cons.mp (perm.mem_iff.mp member) with rfl | old
    · exact List.mem_map_of_mem (List.mem_append_right _ (List.mem_singleton_self _))
    · exact earlier _ (ordered.known item old)
  · intro appended member
    rcases List.mem_append.mp member with old | new
    · obtain ⟨item, listed, high⟩ := ordered.last appended old
      exact ⟨item, perm.mem_iff.mpr (List.mem_cons_of_mem _ listed), high⟩
    · obtain rfl := List.mem_singleton.mp new
      exact ⟨_, perm.mem_iff.mpr (List.mem_cons_self ..), Nat.le_refl _⟩
  · exact fun after place => earlier after (ordered.place after place)
  · exact fun item member => (ordered.passed item member).imp_left (earlier _)
  · exact ordered.received
  · intro item member fits after place low
    rcases List.mem_cons.mp (perm.mem_iff.mp member) with rfl | old
    · exact absurd low (Nat.not_le.mpr (above after (ordered.place after place)))
    · exact ordered.complete item old fits after place low

theorem loadAll_ascending (numbers : (inbox.store.files.items.map Notification.seq).Nodup) :
    inbox.store.loadAll.Pairwise fun first second => first.seq < second.seq := by
  have perm : inbox.store.loadAll.Perm inbox.store.files.items := List.perm_insertionSort ..
  have weak : inbox.store.loadAll.Pairwise fun first second => first.seq ≤ second.seq :=
    List.pairwise_insertionSort _ _
  have apart : inbox.store.loadAll.Pairwise fun first second => first.seq ≠ second.seq :=
    List.pairwise_map.mp ((perm.map _).nodup_iff.mpr numbers)
  exact (weak.and apart).imp fun both => lt_of_le_of_ne both.1 both.2

/-- What the reader asks for next is what it has not received. -/
theorem filter_options (ordered : inbox.Ordered host filters) (limit : Option Int) :
    inbox.store.loadAll.filter (matchesFilters host · (inbox.reader.options filters limit)) =
      inbox.outstanding host filters := by
  refine List.filter_congr fun item member => ?_
  have listed : item ∈ inbox.store.files.items := (List.perm_insertionSort ..).mem_iff.mp member
  rw [matchesFilters_options]
  cases fits : matchesFilters host item (unplaced filters) with
  | false => rfl
  | true =>
      rw [Bool.true_and, Bool.true_and, Bool.eq_iff_iff, Bool.not_eq_true', decide_eq_true_iff]
      cases place : inbox.reader.after with
      | none =>
          refine iff_of_true rfl fun received => ?_
          obtain ⟨other, taken, -⟩ := List.mem_map.mp received
          obtain ⟨-, after, found, -⟩ := ordered.passed other taken
          simp [place] at found
      | some after =>
          rw [Option.any_some, decide_eq_false_iff_not]
          refine not_congr ⟨fun low => ordered.complete item listed fits after place low, fun received => ?_⟩
          obtain ⟨other, taken, same⟩ := List.mem_map.mp received
          obtain ⟨-, found, known, low⟩ := ordered.passed other taken
          rw [place] at known
          exact same ▸ Option.some.inj known ▸ low

theorem page_items (ordered : inbox.Ordered host filters) (limit : Option Int) :
    (inbox.store.listWithUnread host (inbox.reader.options filters limit)).items =
      (inbox.outstanding host filters).take (clampLimit limit) := by
  obtain ⟨items, -⟩ := inbox.store.listWithUnread_asc host (inbox.reader.options filters limit) rfl
  rw [items, ordered.filter_options]
  rfl

theorem outstanding_ascending (ordered : inbox.Ordered host filters) :
    (inbox.outstanding host filters).Pairwise fun first second => first.seq < second.seq :=
  (loadAll_ascending ordered.numbers).filter _

theorem mem_outstanding :
    item ∈ inbox.outstanding host filters ↔ item ∈ inbox.store.files.items ∧
      matchesFilters host item (unplaced filters) = true ∧
        item.seq ∉ inbox.reader.received.map Notification.seq := by
  rw [outstanding, List.mem_filter, NotificationStore.loadAll, List.mem_insertionSort, Bool.and_eq_true_iff,
    decide_eq_true_iff]

/-- What was not received lies after the place of the reader. -/
theorem lt_of_outstanding (ordered : inbox.Ordered host filters) :
    ∀ item ∈ inbox.outstanding host filters, ∀ after ∈ inbox.reader.after, after < item.seq := by
  intro item member after place
  obtain ⟨listed, fits, fresh⟩ := mem_outstanding.mp member
  exact Nat.lt_of_not_le fun low => fresh (ordered.complete item listed fits after place low)

/-- The reader's next place is the highest number of its page, where that has any. -/
theorem take_after (reader : Reader) (page : List Notification) :
    page = [] ∧ (reader.take page).after = reader.after ∨
      ∃ item ∈ page, (reader.take page).after = some item.seq ∧ ∀ other ∈ page, other.seq ≤ item.seq := by
  cases highest : (page.map Notification.seq).max? with
  | none =>
      have empty := List.map_eq_nil_iff.mp (List.max?_eq_none_iff.mp highest)
      exact .inl ⟨empty, by simp [Reader.take, highest]⟩
  | some number =>
      obtain ⟨member, above⟩ := List.max?_eq_some_iff.mp highest
      obtain ⟨item, listed, rfl⟩ := List.mem_map.mp member
      exact .inr ⟨item, listed, by simp [Reader.take, highest],
        fun other found => above _ (List.mem_map_of_mem found)⟩

theorem of_take (ordered : inbox.Ordered host filters) (count : Nat) :
    Ordered host filters
      { inbox with reader := inbox.reader.take ((inbox.outstanding host filters).take count) } := by
  have ascending := ordered.outstanding_ascending
  have taken : ∀ item ∈ (inbox.outstanding host filters).take count, item ∈ inbox.outstanding host filters :=
    fun item member => List.mem_of_mem_take member
  have numbered : ∀ item ∈ (inbox.outstanding host filters).take count,
      item.seq ∈ inbox.appended.map Notification.seq := fun item member =>
    ordered.known item (mem_outstanding.mp (taken item member)).1
  have beyond := ordered.lt_of_outstanding
  constructor
  · exact ordered.pairs
  · exact ordered.numbers
  · exact ordered.ascending
  · exact ordered.known
  · exact ordered.last
  · intro after place
    rcases take_after inbox.reader ((inbox.outstanding host filters).take count) with ⟨-, same⟩ | ⟨item, member, next, -⟩
    · exact ordered.place after (same ▸ place)
    · obtain rfl := Option.some.inj (next.symm.trans place)
      exact numbered item member
  · intro item member
    rcases List.mem_append.mp member with old | new
    · obtain ⟨known, after, place, low⟩ := ordered.passed item old
      refine ⟨known, ?_⟩
      rcases take_after inbox.reader ((inbox.outstanding host filters).take count) with ⟨-, same⟩ | ⟨last, listed, next, -⟩
      · exact ⟨after, same.trans place, low⟩
      · exact ⟨last.seq, next, low.trans (beyond last (taken last listed) after place).le⟩
    · refine ⟨numbered item new, ?_⟩
      rcases take_after inbox.reader ((inbox.outstanding host filters).take count) with ⟨empty, -⟩ | ⟨last, -, next, above⟩
      · rw [empty] at new
        cases new
      · exact ⟨last.seq, next, above item new⟩
  · dsimp only [Reader.take]
    rw [List.map_append, List.pairwise_append]
    refine ⟨ordered.received, List.pairwise_map.mpr (ascending.take ..), fun number old other new => ?_⟩
    obtain ⟨item, received, rfl⟩ := List.mem_map.mp old
    obtain ⟨next, member, rfl⟩ := List.mem_map.mp new
    obtain ⟨-, after, place, low⟩ := ordered.passed item received
    exact low.trans_lt (beyond next (taken next member) after place)
  · intro item listed fits after place low
    dsimp only [Reader.take]
    rw [List.map_append, List.mem_append]
    by_cases received : item.seq ∈ inbox.reader.received.map Notification.seq
    · exact .inl received
    · have waiting : item ∈ inbox.outstanding host filters := mem_outstanding.mpr ⟨listed, fits, received⟩
      rcases take_after inbox.reader ((inbox.outstanding host filters).take count) with ⟨-, same⟩ | ⟨last, member, next, -⟩
      · exact absurd low (Nat.not_le.mpr (beyond item waiting after (same ▸ place)))
      · obtain rfl := Option.some.inj (next.symm.trans place)
        refine .inr (List.mem_map_of_mem ?_)
        rw [← List.take_append_drop count (inbox.outstanding host filters)] at waiting ascending
        rcases List.mem_append.mp waiting with paged | later
        · exact paged
        · exact absurd low (Nat.not_le.mpr ((List.pairwise_append.mp ascending).2.2 last member item later))

theorem of_page (ordered : inbox.Ordered host filters) (limit : Option Int) :
    Ordered host filters (inbox.perform host filters (.page limit)) := by
  rw [Inbox.perform, ordered.page_items]
  exact ordered.of_take _

end Inbox.Ordered

section Append

variable {source : String} {envelope : NotificationEnvelope} (effectiveLevel : Option NotificationLevel)
  (now later : Moment) (stuck : List Int)

/-- An event that is retained changes nothing. -/
theorem perform_append_found {existing : Notification} (filters : NotificationListOptions)
    (found : inbox.store.find? source envelope.eventId = some existing) :
    inbox.perform host filters (.append source envelope effectiveLevel now later stuck) = inbox := by
  simp [Inbox.perform, NotificationStore.append, found]

theorem perform_append_fresh (filters : NotificationListOptions)
    (fresh : inbox.store.find? source envelope.eventId = none) :
    let item := inbox.store.stamp source envelope effectiveLevel now
    let pushed := { inbox.store with files := inbox.store.files.push (dayOf now) item }
    let pruned := pushed.prune host later stuck
    inbox.perform host filters (.append source envelope effectiveLevel now later stuck) =
      { inbox with
        store := pruned
        appended := inbox.appended ++ [item]
        announced := inbox.announced ++
          [.created item (notificationPresentation envelope) pruned.unreadCount] } := by
  simp [Inbox.perform, NotificationStore.append, fresh]

end Append

namespace Inbox.Ordered

theorem perform (ordered : inbox.Ordered host filters) (operation : InboxOperation)
    (met : InOrderClock host inbox operation) : Ordered host filters (inbox.perform host filters operation) := by
  cases operation with
  | append source envelope effectiveLevel now later stuck =>
      cases found : inbox.store.find? source envelope.eventId with
      | some existing => exact (perform_append_found effectiveLevel now later stuck filters found).symm ▸ ordered
      | none =>
          obtain ⟨inOrder, keepsLast⟩ := met found
          rw [perform_append_fresh effectiveLevel now later stuck filters found]
          exact ((ordered.of_push found inOrder).of_prune keepsLast).of_kept
            (List.forall₂_same.mpr fun item _ => .refl item)
  | markRead wanted readBy now => exact ordered.of_kept (inbox.store.markRead_kept wanted readBy now)
  | recordDeliveries source eventId rows =>
      exact ordered.of_kept (inbox.store.recordDeliveries_kept source eventId rows)
  | prune now stuck => exact ordered.of_prune met
  | page limit => exact ordered.of_page limit

theorem of_reached (reached : (inboxSystem host filters).ReachedBy (InOrderClock host) inbox) :
    Ordered host filters inbox := by
  refine reached.invariant (Ordered host filters) ?_ ?_
  · rintro _ ⟨workspaceId, rfl⟩
    exact .start workspaceId
  · intro before operation after ordered met stepped
    exact Option.some.inj stepped ▸ ordered.perform operation met

end Inbox.Ordered

/-- The items that the reader takes before the given one. -/
def Inbox.ahead (host : Host) (filters : NotificationListOptions) (inbox : Inbox) (number : Nat) : List Nat :=
  ((inbox.outstanding host filters).map Notification.seq).filter (· < number)

def Inbox.Retains (host : Host) (filters : NotificationListOptions) (inbox : Inbox) (number : Nat) : Prop :=
  ∃ item ∈ inbox.store.files.items, item.seq = number ∧ matchesFilters host item (unplaced filters) = true

def InboxOperation.isPage : InboxOperation → Bool
  | .page _ => true
  | _ => false

variable {number : Nat}

theorem length_ahead_le {before after : Inbox} (ordered : after.Ordered host filters)
    (fewer : ∀ item ∈ after.outstanding host filters, item.seq < number →
      item.seq ∈ (before.outstanding host filters).map Notification.seq) :
    (after.ahead host filters number).length ≤ (before.ahead host filters number).length := by
  have distinct : ((after.outstanding host filters).map Notification.seq).Nodup :=
    (List.pairwise_map.mpr ordered.outstanding_ascending).imp fun low => low.ne
  refine (List.subperm_of_subset (distinct.filter _) fun other member => ?_).length_le
  obtain ⟨listed, low⟩ := List.mem_filter.mp member
  obtain ⟨item, waiting, rfl⟩ := List.mem_map.mp listed
  exact List.mem_filter.mpr ⟨fewer item waiting (of_decide_eq_true low), low⟩

/-- Only a new item may wait that did not wait before, and it comes after the given one. -/
theorem outstanding_perform (ordered : inbox.Ordered host filters) (operation : InboxOperation)
    (met : InOrderClock host inbox operation) (noPage : operation.isPage = false)
    (known : number ∈ inbox.appended.map Notification.seq) :
    ∀ item ∈ (inbox.perform host filters operation).outstanding host filters, item.seq < number →
      item.seq ∈ (inbox.outstanding host filters).map Notification.seq := by
  have of_kept : ∀ store : NotificationStore, ∀ announced,
      List.Forall₂ Notification.Same inbox.store.files.items store.files.items →
      ∀ item ∈ ({ inbox with store := store, announced := announced } : Inbox).outstanding host filters,
        item.seq ∈ (inbox.outstanding host filters).map Notification.seq := by
    intro store announced kept item waiting
    obtain ⟨listed, fits, fresh⟩ := Inbox.Ordered.mem_outstanding.mp waiting
    obtain ⟨old, member, same⟩ := Inbox.Ordered.mem_of_same kept listed
    rw [same.seq] at fresh ⊢
    exact List.mem_map_of_mem
      (Inbox.Ordered.mem_outstanding.mpr ⟨member, matchesFilters_of_same same fits, fresh⟩)
  intro item waiting low
  cases operation with
  | append source envelope effectiveLevel now later stuck =>
      cases found : inbox.store.find? source envelope.eventId with
      | some existing =>
          rw [perform_append_found effectiveLevel now later stuck filters found] at waiting
          exact List.mem_map_of_mem waiting
      | none =>
          rw [perform_append_fresh effectiveLevel now later stuck filters found] at waiting
          obtain ⟨listed, fits, fresh⟩ := Inbox.Ordered.mem_outstanding.mp waiting
          have pushed := (inbox.store.files.items_push ..).mem_iff.mp
            ((Segments.items_keep_sublist _ _).subset listed)
          rcases List.mem_cons.mp pushed with rfl | old
          · exact absurd low (Nat.not_lt.mpr (ordered.lt_nextSeq_of_appended (met found).1 number known).le)
          · exact List.mem_map_of_mem (Inbox.Ordered.mem_outstanding.mpr ⟨old, fits, fresh⟩)
  | markRead wanted readBy now => exact of_kept _ _ (inbox.store.markRead_kept wanted readBy now) item waiting
  | recordDeliveries source eventId rows =>
      exact of_kept _ _ (inbox.store.recordDeliveries_kept source eventId rows) item waiting
  | prune now stuck =>
      obtain ⟨listed, fits, fresh⟩ := Inbox.Ordered.mem_outstanding.mp waiting
      exact List.mem_map_of_mem (Inbox.Ordered.mem_outstanding.mpr
        ⟨(Segments.items_keep_sublist _ _).subset listed, fits, fresh⟩)
  | page limit => cases noPage

/-- A page takes the item or one before it. -/
theorem ahead_page (ordered : inbox.Ordered host filters) (limit : Option Int)
    (retains : inbox.Retains host filters number) :
    let after := inbox.perform host filters (.page limit)
    number ∈ after.reader.received.map Notification.seq ∨
      (after.ahead host filters number).length < (inbox.ahead host filters number).length := by
  have ordered' := ordered.of_page limit
  have taken : (inbox.perform host filters (.page limit)).reader.received =
      inbox.reader.received ++ (inbox.outstanding host filters).take (clampLimit limit) :=
    congrArg (inbox.reader.received ++ ·) (ordered.page_items limit)
  dsimp only
  by_cases received :
      number ∈ (inbox.perform host filters (.page limit)).reader.received.map Notification.seq
  · exact .inl received
  · obtain ⟨item, listed, rfl, fits⟩ := retains
    rw [taken, List.map_append, List.mem_append, not_or] at received
    have waiting : item ∈ inbox.outstanding host filters :=
      Inbox.Ordered.mem_outstanding.mpr ⟨listed, fits, received.1⟩
    have ascending := ordered.outstanding_ascending
    cases first : inbox.outstanding host filters with
    | nil =>
        rw [first] at waiting
        cases waiting
    | cons next rest =>
        obtain ⟨count, positive⟩ := Nat.exists_eq_succ_of_ne_zero (NotificationStore.clampLimit_pos limit).ne'
        rw [first] at waiting ascending
        rw [first, positive, List.take_succ_cons] at received taken
        obtain ⟨before, -⟩ := List.pairwise_cons.mp ascending
        have low : next.seq < item.seq := by
          rcases List.mem_cons.mp waiting with rfl | later
          · exact absurd (List.mem_cons_self ..) received.2
          · exact before item later
        have distinct := (List.pairwise_map.mpr ordered'.outstanding_ascending).imp fun low => Nat.ne_of_lt low
        have fewer : ((inbox.perform host filters (.page limit)).ahead host filters item.seq).length ≤
            ((rest.map Notification.seq).filter (· < item.seq)).length := by
          refine (List.subperm_of_subset (distinct.filter _) fun other member => ?_).length_le
          obtain ⟨numbered, less⟩ := List.mem_filter.mp member
          obtain ⟨still, waits, rfl⟩ := List.mem_map.mp numbered
          obtain ⟨kept, fine, fresh⟩ := Inbox.Ordered.mem_outstanding.mp waits
          rw [taken, List.map_append, List.mem_append, not_or] at fresh
          have old : still ∈ next :: rest := first ▸ Inbox.Ordered.mem_outstanding.mpr ⟨kept, fine, fresh.1⟩
          rcases List.mem_cons.mp old with rfl | later
          · exact absurd (List.mem_cons_self ..) fresh.2
          · exact List.mem_filter.mpr ⟨List.mem_map_of_mem later, less⟩
        refine .inr (fewer.trans_lt ?_)
        rw [Inbox.ahead, first, List.map_cons, List.filter_cons, if_pos (decide_eq_true low), List.length_cons]
        exact Nat.lt_succ_self _

theorem received_perform (operation : InboxOperation) :
    inbox.reader.received.Sublist (inbox.perform host filters operation).reader.received := by
  cases operation with
  | page limit => exact List.sublist_append_left ..
  | _ => exact List.Sublist.refl _

/-- An item that stays retained and matching is received once more pages are asked for than items are before it. -/
theorem received_of_pages {operations : List InboxOperation} {last : Inbox}
    (ordered : inbox.Ordered host filters)
    (meets : (inboxSystem host filters).Meets (InOrderClock host) inbox operations)
    (stays : (inboxSystem host filters).Meets (fun inbox _ => inbox.Retains host filters number) inbox operations)
    (ran : (inboxSystem host filters).run inbox operations = some last)
    (enough : number ∈ inbox.reader.received.map Notification.seq ∨
      (inbox.ahead host filters number).length < operations.countP InboxOperation.isPage) :
    number ∈ last.reader.received.map Notification.seq := by
  induction operations generalizing inbox with
  | nil =>
      obtain rfl := Option.some.inj ran
      exact enough.resolve_right (by simp)
  | cons operation rest ih =>
      obtain ⟨met, meets⟩ := meets
      obtain ⟨retains, stays⟩ := stays
      refine ih (ordered.perform operation met) (meets _ rfl) (stays _ rfl) ran ?_
      rcases enough with received | few
      · exact .inl (((received_perform operation).map _).subset received)
      · obtain ⟨item, listed, rfl, fits⟩ := retains
        cases paged : operation.isPage with
        | false =>
            have fewer := length_ahead_le (ordered.perform operation met)
              (outstanding_perform ordered operation met paged (ordered.known item listed))
            rw [List.countP_cons_of_neg (by simp [paged])] at few
            exact .inr (fewer.trans_lt few)
        | true =>
            cases operation with
            | page limit =>
                refine (ahead_page ordered limit ⟨item, listed, rfl, fits⟩).imp_right fun fewer => ?_
                rw [List.countP_cons_of_pos rfl] at few
                omega
            | _ => cases paged

/-- What a single operation promises. -/
structure Inbox.StepFine (host : Host) (filters : NotificationListOptions) (before : Inbox)
    (operation : InboxOperation) : Prop where
  repeated : ∀ source envelope effectiveLevel now later stuck,
    operation = .append source envelope effectiveLevel now later stuck →
    (∃ retained ∈ before.store.files.items, retained.pair = (source, envelope.eventId)) →
      before.perform host filters operation = before
  fresh : ∀ source envelope effectiveLevel now later stuck,
    operation = .append source envelope effectiveLevel now later stuck →
    (∀ retained ∈ before.store.files.items, retained.pair ≠ (source, envelope.eventId)) →
      ∃ item, (before.perform host filters operation).appended = before.appended ++ [item] ∧
        item.pair = (source, envelope.eventId) ∧ ∀ retained ∈ before.store.files.items, retained.seq < item.seq
  announced : ∃ added, (before.perform host filters operation).announced = before.announced ++ added ∧
    ∀ announcement ∈ added, announcement.unread =
      (before.perform host filters operation).store.files.items.countP fun item => item.readAt.isNone
  paged : ∀ limit, operation = .page limit → (before.perform host filters operation).reader.received =
    before.reader.received ++ (before.outstanding host filters).take (clampLimit limit)

theorem find?_eq_none_iff {store : NotificationStore} {source eventId : String} :
    store.find? source eventId = none ↔ ∀ retained ∈ store.files.items, retained.pair ≠ (source, eventId) := by
  simp [NotificationStore.find?, List.find?_eq_none, Notification.pair]

theorem Inbox.Ordered.stepFine (ordered : inbox.Ordered host filters) (operation : InboxOperation)
    (met : InOrderClock host inbox operation) : inbox.StepFine host filters operation where
  repeated := by
    rintro source envelope effectiveLevel now later stuck rfl ⟨retained, listed, same⟩
    cases found : inbox.store.find? source envelope.eventId with
    | some existing => exact perform_append_found effectiveLevel now later stuck filters found
    | none => exact absurd same (find?_eq_none_iff.mp found retained listed)
  fresh := by
    rintro source envelope effectiveLevel now later stuck rfl absent
    have found := find?_eq_none_iff.mpr absent
    rw [perform_append_fresh effectiveLevel now later stuck filters found]
    exact ⟨_, rfl, rfl, inbox.store.lt_nextSeq (met found).1⟩
  announced := by
    cases operation with
    | append source envelope effectiveLevel now later stuck =>
        cases found : inbox.store.find? source envelope.eventId with
        | some existing =>
            rw [perform_append_found effectiveLevel now later stuck filters found]
            exact ⟨[], by simp, by simp⟩
        | none =>
            rw [perform_append_fresh effectiveLevel now later stuck filters found]
            refine ⟨_, rfl, fun announcement member => ?_⟩
            obtain rfl := List.mem_singleton.mp member
            exact NotificationStore.unreadCount_eq _
    | markRead wanted readBy now =>
        refine ⟨_, rfl, fun announcement member => ?_⟩
        rw [inbox.store.markRead_unread wanted readBy now announcement (Option.mem_toList.mp member)]
        exact NotificationStore.unreadCount_eq _
    | _ => exact ⟨[], by simp [Inbox.perform], by simp⟩
  paged := by
    rintro limit rfl
    exact congrArg (inbox.reader.received ++ ·) (ordered.page_items limit)

variable (host filters)

/-- While new items come in order and the last item stays, the items of an inbox are distinct, each operation does
what it promises, and the reader receives what stays retained once and in the order of the appends. -/
theorem inbox_position (reached : (inboxSystem host filters).ReachedBy (InOrderClock host) inbox) :
    (inbox.store.files.items.map Notification.pair).Nodup ∧
      (∀ operation, InOrderClock host inbox operation → inbox.StepFine host filters operation) ∧
      (inbox.appended.map Notification.seq).Nodup ∧
      (inbox.reader.received.map Notification.seq).Sublist (inbox.appended.map Notification.seq) ∧
      ∀ number operations last, (inboxSystem host filters).Meets (InOrderClock host) inbox operations →
        (inboxSystem host filters).Meets (fun inbox _ => inbox.Retains host filters number) inbox operations →
        (inboxSystem host filters).run inbox operations = some last →
        (inbox.ahead host filters number).length < operations.countP InboxOperation.isPage →
          number ∈ last.reader.received.map Notification.seq := by
  have ordered := Inbox.Ordered.of_reached reached
  refine ⟨ordered.pairs, ordered.stepFine, ordered.ascending.imp fun low => Nat.ne_of_lt low, ?_, ?_⟩
  · have subset : inbox.reader.received.map Notification.seq ⊆ inbox.appended.map Notification.seq := by
      intro number member
      obtain ⟨item, received, rfl⟩ := List.mem_map.mp member
      exact (ordered.passed item received).1
    exact List.sublist_of_subperm_of_pairwise
      (List.subperm_of_subset (ordered.received.imp fun low => Nat.ne_of_lt low) subset) ordered.received
      ordered.ascending
  · intro number operations last meets stays ran enough
    exact received_of_pages ordered meets stays ran (.inr enough)

/-- A host that keeps ninety days. It reads no dates. -/
def plainHost : Host where
  parseDate _ := none
  toLowerCase text := text
  cutoffDay now := dayOf now - 90

def emptyInbox : Inbox := { store := { workspaceId := "ws", files := .empty } }

/-- A connector's event, as the store takes it at one reading of the clock. -/
def appendAt (eventId : String) (now : Moment) : InboxOperation :=
  .append "acme" { eventId := eventId, name := "done", timestamp := "" } none now now []

instance (number : Nat) : Decidable (inbox.Retains host filters number) :=
  inferInstanceAs (Decidable (∃ _ ∈ _, _))

/-- The clock passes midnight between two items that are read one by one. -/
theorem inbox_position_midnight :
    ∃ inbox, (inboxSystem plainHost {}).run emptyInbox [appendAt "a" 1, appendAt "b" dayMs, .page (some 1)] =
        some inbox ∧
      (inbox.reader.received.map Notification.seq).Sublist (inbox.appended.map Notification.seq) ∧
      ∃ last, (inboxSystem plainHost {}).run inbox [.markRead [("acme", "a")] none dayMs, .page none, .page none] =
          some last ∧ 2 ∈ last.reader.received.map Notification.seq := by
  have started : (inboxSystem plainHost {}).ReachedBy (InOrderClock plainHost) emptyInbox := .start _ ⟨"ws", rfl⟩
  have meets : (inboxSystem plainHost {}).Meets (InOrderClock plainHost) emptyInbox
      [appendAt "a" 1, appendAt "b" dayMs, .page (some 1)] := by decide +kernel
  have reached := started.run meets rfl
  obtain ⟨-, -, -, order, receives⟩ := inbox_position plainHost {} reached
  exact ⟨_, rfl, order, _, rfl, receives 2 [.markRead [("acme", "a")] none dayMs, .page none, .page none] _
    (by decide +kernel) (by decide +kernel) rfl (by decide +kernel)⟩

/-- After the clock stepped back over midnight two items take one number, and a reader never gets the second. -/
theorem clock_back_repeats_number :
    ∃ inbox, (inboxSystem plainHost {}).run emptyInbox
        [appendAt "a" dayMs, appendAt "b" 1, appendAt "c" 2, .page (some 1), .page (some 1), .page none] =
        some inbox ∧
      inbox.appended.map (fun item => (item.envelope.eventId, item.seq)) = [("a", 1), ("b", 2), ("c", 2)] ∧
      inbox.store.files.items.map (fun item => item.envelope.eventId) = ["b", "c", "a"] ∧
      inbox.reader.received.map (fun item => item.envelope.eventId) = ["a", "b"] := by
  refine ⟨_, rfl, ?_⟩
  decide +kernel

end NimbleBrain.Notifications
