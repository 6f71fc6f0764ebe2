import NexaHR.Foundations.Table

/-! # The outbox

`models/notification_delivery.py` and what the delivery reads of `models/notification.py` and
`models/user.py`: a row for each message that has to leave the system. A row cannot be without its
notification, because the foreign key deletes it with the notification.
-/

namespace NexaHR

open Foundations

set_option autoImplicit false

inductive DeliveryChannel
  | email
  | sms
  deriving DecidableEq

/-- `failed` is tried again, `abandoned` is not. -/
inductive DeliveryStatus
  | pending
  | sent
  | failed
  | abandoned
  deriving DecidableEq

/-- A notification, as the delivery reads it. -/
structure QueuedNotification where
  id : Nat
  userId : Nat
  type : String
  message : String
  link : Option String
  deriving DecidableEq

/-- What the sweep writes in a row. -/
structure DeliveryProgress where
  status : DeliveryStatus
  attempts : Nat
  lastAttemptAt : Option Nat
  lastError : Option String
  sentAt : Option Nat
  deriving DecidableEq

structure NotificationDelivery extends DeliveryProgress where
  id : Nat
  notificationId : Nat
  channel : DeliveryChannel
  recipient : String
  createdAt : Nat
  deriving DecidableEq

instance : HasId QueuedNotification := ⟨QueuedNotification.id⟩

instance : HasId NotificationDelivery := ⟨NotificationDelivery.id⟩

namespace NotificationDelivery

/-- The sweep reads the row. -/
def isWaiting (d : NotificationDelivery) : Bool := d.status = .pending || d.status = .failed

def withProgress (d : NotificationDelivery) (p : DeliveryProgress) : NotificationDelivery :=
  { d with toDeliveryProgress := p }

@[simp] theorem withProgress_id (d : NotificationDelivery) (p : DeliveryProgress) :
    (d.withProgress p).id = d.id := rfl

@[simp] theorem withProgress_notificationId (d : NotificationDelivery) (p : DeliveryProgress) :
    (d.withProgress p).notificationId = d.notificationId := rfl

@[simp] theorem withProgress_progress (d : NotificationDelivery) (p : DeliveryProgress) :
    (d.withProgress p).toDeliveryProgress = p := rfl

end NotificationDelivery

structure Outbox where
  notifications : Table QueuedNotification
  deliveries : Table NotificationDelivery
  notified : ∀ d ∈ deliveries, (notifications.get? d.notificationId).isSome = true

namespace Outbox

def empty : Outbox where
  notifications := Table.empty
  deliveries := Table.empty
  notified := fun d hd => absurd hd (Table.not_mem_empty d)

/-- The progress of the row `k` becomes `p`. -/
def writeTo (k : Nat) (p : DeliveryProgress) (d : NotificationDelivery) : NotificationDelivery :=
  if d.id = k then d.withProgress p else d

theorem writeTo_id (k : Nat) (p : DeliveryProgress) (d : NotificationDelivery) :
    HasId.id (writeTo k p d) = HasId.id d := by
  unfold writeTo
  split <;> rfl

theorem writeTo_notificationId (k : Nat) (p : DeliveryProgress) (d : NotificationDelivery) :
    (writeTo k p d).notificationId = d.notificationId := by
  unfold writeTo
  split <;> rfl

def write (o : Outbox) (k : Nat) (p : DeliveryProgress) : Outbox where
  notifications := o.notifications
  deliveries := o.deliveries.map (writeTo k p) (writeTo_id k p)
  notified := by
    intro d' hd'
    obtain ⟨d, hd, rfl⟩ := Table.mem_map.mp hd'
    rw [writeTo_notificationId]
    exact o.notified d hd

theorem write_get? (o : Outbox) (k : Nat) (p : DeliveryProgress) (j : Nat) :
    (o.write k p).deliveries.get? j = (o.deliveries.get? j).map (writeTo k p) :=
  Table.get?_map _ _ (writeTo_id k p) j

/-- A new notification. -/
def addNotification (o : Outbox) (userId : Nat) (type message : String) (link : Option String) : Outbox where
  notifications := o.notifications.insert (fun id => ⟨id, userId, type, message, link⟩) fun _ => rfl
  deliveries := o.deliveries
  notified := by
    intro d hd
    obtain ⟨n, hn⟩ := Option.isSome_iff_exists.mp (o.notified d hd)
    rw [Table.get?_insert_of_get? _ hn]
    rfl

theorem addNotification_get? (o : Outbox) (userId : Nat) (type message : String) (link : Option String) :
    (o.addNotification userId type message link).notifications.get? (o.notifications.seq + 1) =
      some ⟨o.notifications.seq + 1, userId, type, message, link⟩ :=
  o.notifications.get?_insert_self (fun id => ⟨id, userId, type, message, link⟩) fun _ => rfl

/-- A row that waits for its first attempt. -/
def newDelivery (notificationId : Nat) (channel : DeliveryChannel) (recipient : String)
    (createdAt id : Nat) : NotificationDelivery where
  id := id
  notificationId := notificationId
  channel := channel
  recipient := recipient
  status := .pending
  attempts := 0
  lastAttemptAt := none
  lastError := none
  sentAt := none
  createdAt := createdAt

def insertDelivery (notificationId createdAt : Nat) (t : Table NotificationDelivery)
    (row : DeliveryChannel × String) : Table NotificationDelivery :=
  t.insert (newDelivery notificationId row.1 row.2 createdAt) fun _ => rfl

theorem mem_insertDeliveries {notificationId createdAt : Nat} {rows : List (DeliveryChannel × String)}
    {t : Table NotificationDelivery} {d : NotificationDelivery}
    (h : d ∈ rows.foldl (insertDelivery notificationId createdAt) t) :
    d ∈ t ∨ (t.seq < d.id ∧ ∃ row : DeliveryChannel × String, d = newDelivery notificationId row.1 row.2 createdAt d.id) := by
  induction rows generalizing t with
  | nil => exact Or.inl h
  | cons row rows ih =>
    rcases ih h with hmem | ⟨hlt, hnew⟩
    · rcases (Table.mem_insert _).mp hmem with hold | rfl
      · exact Or.inl hold
      · exact Or.inr ⟨Nat.lt_succ_self t.seq, row, rfl⟩
    · exact Or.inr ⟨Nat.lt_of_succ_lt hlt, hnew⟩

/-- The rows of a notification, one for each address. -/
def enqueued (o : Outbox) (notification : QueuedNotification)
    (hnotification : o.notifications.get? notification.id = some notification)
    (rows : List (DeliveryChannel × String)) (now : Nat) : Outbox where
  notifications := o.notifications
  deliveries := rows.foldl (insertDelivery notification.id now) o.deliveries
  notified := by
    intro d hd
    rcases mem_insertDeliveries hd with hold | ⟨-, row, hnew⟩
    · exact o.notified d hold
    · have hid : d.notificationId = notification.id := by rw [hnew]; rfl
      rw [hid, hnotification]
      rfl

/-- The notifications that are kept, and their rows. -/
def keepNotifications (o : Outbox) (keep : QueuedNotification → Bool) : Outbox where
  notifications := o.notifications.filter keep
  deliveries := o.deliveries.filter fun d => (o.notifications.get? d.notificationId).any keep
  notified := by
    intro d hd
    have hkept := (Table.mem_filter.mp hd).2
    obtain ⟨n, hn⟩ := Option.isSome_iff_exists.mp (o.notified d (Table.mem_filter.mp hd).1)
    rw [hn, Option.any_some] at hkept
    rw [Table.get?_filter, hn, Option.filter_some, if_pos hkept]
    rfl

end Outbox

end NexaHR
