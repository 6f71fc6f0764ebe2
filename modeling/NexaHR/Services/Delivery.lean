import NexaHR.Foundations.Checks
import NexaHR.Foundations.Page
import NexaHR.Models.Outbox
import Mathlib.Algebra.Group.Nat.Defs
import Mathlib.Data.List.Dedup

/-! # Delivery

`services/delivery.py`: which notifications leave the system, and the sweep that hands the waiting rows
to their channels. What a channel does with a message is left open.

* `enqueueFor`: the rows of a notification.
* `retryDelay`, `isDue`: when a row is tried again.
* `runDeliverySweep`: one sweep, with the calls that it made.
-/

namespace NexaHR

open Foundations

set_option autoImplicit false

/-! ## Queueing -/

def outboundTypes : List String :=
  ["workflow_hr_approve", "workflow_deputy_approve", "workflow_reassigned", "workflow_hr_return",
    "workflow_deputy_return", "workflow_ceo_return", "evaluation_finalized_self", "sla_reminder",
    "contract_expiry", "improvement_review_due", "orphaned_case", "bulk_evaluations_assigned"]

/-- How a user can be reached. -/
structure Contact where
  isActive : Bool
  email : Option String
  phone : Option String
  notifyByEmail : Bool
  notifyBySms : Bool

def recipientFor (user : Contact) : DeliveryChannel → Option String
  | .email => if user.notifyByEmail then user.email.filter (· ≠ "") else none
  | .sms => if user.notifyBySms then user.phone.filter (· ≠ "") else none

/-- The addresses of a notification, one for each configured channel that the user wants. -/
def addressesOf (type : String) (user : Option Contact) (configured : List DeliveryChannel) :
    List (DeliveryChannel × String) :=
  if type ∈ outboundTypes then
    match user.filter Contact.isActive with
    | some contact =>
      configured.dedup.filterMap fun kind => (recipientFor contact kind).map fun address => (kind, address)
    | none => []
  else []

def enqueueFor (o : Outbox) (notification : QueuedNotification)
    (hnotification : o.notifications.get? notification.id = some notification) (user : Option Contact)
    (configured : List DeliveryChannel) (now : Nat) : Outbox :=
  o.enqueued notification hnotification (addressesOf notification.type user configured) now

/-! ## Due rows -/

structure DeliverySettings where
  deliveryBatchSize : Nat := 50
  deliveryMaxAttempts : Nat := 5
  deliveryRetryBaseMinutes : Nat := 5

/-- What arithmetic on times raises. -/
inductive OverflowError
  | timedelta
  | date
  deriving DecidableEq

/-- The seconds of the years that a date can have, 1 to 9999. -/
def dateRange : Nat := 3652059 * 86400

/-- A duration has at most 999999999 days. -/
def maxDays : Nat := 999999999

/-- The delay in seconds until a row is tried again. -/
def retryDelay (S : DeliverySettings) (attempts : Nat) : Except OverflowError Nat := do
  let minutes := S.deliveryRetryBaseMinutes * 2 ^ (attempts - 1)
  ensure (minutes / 1440 ≤ maxDays) .timedelta
  pure (minutes * 60)

def isDue (S : DeliverySettings) (delivery : NotificationDelivery) (now : Nat) :
    Except OverflowError Bool :=
  match delivery.lastAttemptAt with
  | none => .ok true
  | some lastAttemptAt => do
    let delay ← retryDelay S delivery.attempts
    ensure (lastAttemptAt + delay < dateRange) .date
    pure (decide (lastAttemptAt + delay ≤ now))

/-- The rows that are due; the first one that cannot be decided stops the sweep. -/
def dueRows (S : DeliverySettings) (now : Nat) :
    List NotificationDelivery → Except OverflowError (List NotificationDelivery)
  | [] => pure []
  | row :: rows => do
    let due ← isDue S row now
    let rest ← dueRows S now rows
    pure (if due then row :: rest else rest)

/-! ## Sending -/

structure Message where
  recipient : String
  subject : String
  body : String
  link : Option String
  deriving DecidableEq

/-- What came of a call of `send`: nothing was raised, a `DeliveryError`, or anything else. -/
inductive SendResult
  | delivered (sentAt : Nat)
  | declined (message : String) (retryable : Bool)
  | crashed (message : String)
  deriving DecidableEq

/-- A sweep: its time, the channels that are configured then, the order in which the database hands
over rows of one age, and what the channels do. -/
structure DeliverySweep where
  now : Nat
  configured : List DeliveryChannel
  limit : Option Nat := none
  rank : Nat → Nat := id
  send : Nat → Message → SendResult

/-- One call of `send`. -/
structure SendCall where
  deliveryId : Nat
  message : Message
  result : SendResult
  deriving DecidableEq

def deliveryErrorMax : Nat := 500

def errorText (text : String) : String := String.ofList (text.toList.take deliveryErrorMax)

def subjectFor (notification : QueuedNotification) : String :=
  "NexaHR — " ++ String.ofList (notification.message.toList.take 60)

def messageFor (delivery : NotificationDelivery) (notification : QueuedNotification) : Message where
  recipient := delivery.recipient
  subject := subjectFor notification
  body := notification.message
  link := notification.link

/-- The row after an attempt. -/
def progressAfter (S : DeliverySettings) (now : Nat) (delivery : NotificationDelivery) :
    SendResult → DeliveryProgress
  | .delivered sentAt =>
    { status := .sent
      attempts := delivery.attempts + 1
      lastAttemptAt := some now
      lastError := none
      sentAt := some sentAt }
  | .declined message retryable =>
    { status :=
        if retryable = false ∨ S.deliveryMaxAttempts ≤ delivery.attempts + 1 then .abandoned else .failed
      attempts := delivery.attempts + 1
      lastAttemptAt := some now
      lastError := some (errorText message)
      sentAt := delivery.sentAt }
  | .crashed message =>
    { status := .failed
      attempts := delivery.attempts + 1
      lastAttemptAt := some now
      lastError := some (errorText ("خطای پیش‌بینی‌نشده: " ++ message))
      sentAt := delivery.sentAt }

structure SweepOutcome where
  sent : Nat := 0
  failed : Nat := 0
  abandoned : Nat := 0
  deriving DecidableEq

def SweepOutcome.count (outcome : SweepOutcome) : DeliveryStatus → SweepOutcome
  | .sent => { outcome with sent := outcome.sent + 1 }
  | .failed => { outcome with failed := outcome.failed + 1 }
  | .abandoned => { outcome with abandoned := outcome.abandoned + 1 }
  | .pending => outcome

/-- A sweep under way. -/
structure Sweeping where
  outbox : Outbox
  outcome : SweepOutcome := {}
  calls : List SendCall := []

/-- The row of a notification that is gone. -/
def orphanedProgress (delivery : NotificationDelivery) : DeliveryProgress :=
  { delivery.toDeliveryProgress with
    status := .abandoned
    lastError := some "اعلان مرتبط دیگر وجود ندارد" }

def deliver (S : DeliverySettings) (s : DeliverySweep) (w : Sweeping) (delivery : NotificationDelivery) :
    Sweeping :=
  if delivery.channel ∈ s.configured then
    match w.outbox.notifications.get? delivery.notificationId with
    | none =>
      { w with
        outbox := w.outbox.write delivery.id (orphanedProgress delivery)
        outcome := w.outcome.count .abandoned }
    | some notification =>
      let result := s.send delivery.id (messageFor delivery notification)
      let progress := progressAfter S s.now delivery result
      { outbox := w.outbox.write delivery.id progress
        outcome := w.outcome.count progress.status
        calls := w.calls ++ [⟨delivery.id, messageFor delivery notification, result⟩] }
  else w

/-! ## The sweep -/

def batchSize (S : DeliverySettings) (s : DeliverySweep) : Nat :=
  (s.limit.filter (· ≠ 0)).getD S.deliveryBatchSize

/-- The waiting rows, the oldest first. -/
def waitingRows (o : Outbox) (s : DeliverySweep) : List NotificationDelivery :=
  sortedBy NotificationDelivery.createdAt
    (sortedBy (fun d => s.rank d.id) (o.deliveries.rows.filter NotificationDelivery.isWaiting))

def candidates (S : DeliverySettings) (o : Outbox) (s : DeliverySweep) : List NotificationDelivery :=
  (waitingRows o s).take (batchSize S s * 4)

def runDeliverySweep (S : DeliverySettings) (o : Outbox) (s : DeliverySweep) :
    Except OverflowError Sweeping :=
  if s.configured = [] then pure { outbox := o }
  else do
    let due ← dueRows S s.now (candidates S o s)
    pure ((due.take (batchSize S s)).foldl (deliver S s) { outbox := o })

end NexaHR
