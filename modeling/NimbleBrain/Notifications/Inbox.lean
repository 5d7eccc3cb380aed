import NimbleBrain.Library.Transition
import NimbleBrain.Notifications.Store

/- An inbox takes operations in any order, under any readings of the clock. One reader pages through it. -/

namespace NimbleBrain.Notifications

open Library

/-- A reader passes back the highest number of its previous page. -/
structure Reader where
  after : Option Nat := none
  received : List Notification := []
  deriving DecidableEq

/-- The store with what was appended and announced so far. -/
structure Inbox where
  store : NotificationStore
  reader : Reader := {}
  appended : List Notification := []
  announced : List Announcement := []
  deriving DecidableEq

inductive InboxOperation where
  | append (source : String) (envelope : NotificationEnvelope) (effectiveLevel : Option NotificationLevel)
      (now later : Moment) (stuck : List Int)
  | markRead (wanted : List (String × String)) (readBy : Option String) (now : Moment)
  | recordDeliveries (source eventId : String) (rows : List DeliveryRecord)
  | prune (now : Moment) (stuck : List Int)
  | page (limit : Option Int)
  deriving DecidableEq

variable (host : Host) (filters : NotificationListOptions)

/-- The filters of the reader without a place to start from. -/
def unplaced : NotificationListOptions := { filters with after := none, limit := none, order := some .asc }

def Reader.options (reader : Reader) (limit : Option Int) : NotificationListOptions :=
  { filters with after := reader.after, limit := limit, order := some .asc }

def Reader.take (reader : Reader) (page : List Notification) : Reader where
  after := (page.map Notification.seq).max?.or reader.after
  received := reader.received ++ page

def Inbox.perform (inbox : Inbox) : InboxOperation → Inbox
  | .append source envelope effectiveLevel now later stuck =>
      let (store, result, announcement) := inbox.store.append host source envelope effectiveLevel now later stuck
      { inbox with
        store := store
        appended := if result.created then inbox.appended ++ [result.item] else inbox.appended
        announced := inbox.announced ++ announcement.toList }
  | .markRead wanted readBy now =>
      let (store, _, announcement) := inbox.store.markRead wanted readBy now
      { inbox with store := store, announced := inbox.announced ++ announcement.toList }
  | .recordDeliveries source eventId rows =>
      { inbox with store := (inbox.store.recordDeliveries source eventId rows).1 }
  | .prune now stuck => { inbox with store := inbox.store.prune host now stuck }
  | .page limit =>
      { inbox with
        reader := inbox.reader.take (inbox.store.listWithUnread host (inbox.reader.options filters limit)).items }

/-- Every operation is possible in every state. -/
def inboxSystem : System Inbox InboxOperation where
  initial inbox := ∃ workspaceId, inbox = { store := { workspaceId := workspaceId, files := .empty } }
  step inbox operation := some (inbox.perform host filters operation)

/-- The file that has the highest number is not deleted. -/
def NotificationStore.KeepsLast (store : NotificationStore) (now : Moment) (stuck : List Int) : Prop :=
  ∀ item ∈ store.files.items, (∀ other ∈ store.files.items, other.seq ≤ item.seq) →
    item ∈ (store.prune host now stuck).files.items

instance (store : NotificationStore) (now : Moment) (stuck : List Int) : Decidable (store.KeepsLast host now stuck) :=
  inferInstanceAs (Decidable (∀ _ ∈ _, _))

/-- A new item comes while the files are in order, and the last item is never deleted. -/
def InOrderClock (inbox : Inbox) : InboxOperation → Prop
  | .append source envelope effectiveLevel now later stuck =>
      inbox.store.find? source envelope.eventId = none →
        inbox.store.InOrder ∧
          ({ inbox.store with
            files := inbox.store.files.push (dayOf now) (inbox.store.stamp source envelope effectiveLevel now) } :
              NotificationStore).KeepsLast host later stuck
  | .prune now stuck => inbox.store.KeepsLast host now stuck
  | _ => True

instance (inbox : Inbox) (operation : InboxOperation) : Decidable (InOrderClock host inbox operation) :=
  match operation with
  | .append .. => inferInstanceAs (Decidable (_ → _ ∧ _))
  | .prune .. => inferInstanceAs (Decidable (NotificationStore.KeepsLast ..))
  | .markRead .. | .recordDeliveries .. | .page _ => inferInstanceAs (Decidable True)

/-- The retained items that match and that the reader has not received, in the order of their numbers. -/
def Inbox.outstanding (inbox : Inbox) : List Notification :=
  inbox.store.loadAll.filter fun item =>
    matchesFilters host item (unplaced filters) && decide (item.seq ∉ inbox.reader.received.map Notification.seq)

end NimbleBrain.Notifications
