import NexaHR.Foundations.Once
import NexaHR.Foundations.Page
import NexaHR.Services.Notifications

/-! # Scheduled sweeps

`services/scheduled.py`: the sweeps over the open records and over the people without one. Those over the records
compute for themselves who has to act now, and each creates the notices that those users, or HR, did not get
within its window.

* `currentOwnerIds`: who has to act now.
* `slaReminders`, `runSlaSweep`: reminders of records that stand still.
* `orphanReports`, `runOrphanedCaseSweep`: reports to HR of records whose owner is no active user.
* `contractNotices`, `runContractExpirySweep`: warnings to HR of contracts that run out.
* `runAllSweeps`: these sweeps in a row, and how many notices each created.
-/

namespace NexaHR

open Foundations

set_option autoImplicit false

/-! ## Notices of a sweep -/

def dedupKey (kind : String) (r : EvaluationRecord) : String :=
  kind ++ ":" ++ toString r.id ++ ":" ++ r.status.value

theorem colon_not_mem_digits (n : Nat) : ':' ∉ (toString n).toList := by
  intro h
  have hdigit : (':' : Char).isDigit = true := by
    apply Nat.isDigit_of_mem_toDigits (b := 10) (n := n) (by decide) (by decide)
    simpa using h
  cases hdigit

theorem digits_inj {m n : Nat} (h : (toString m).toList = (toString n).toList) : m = n := by
  have hvalue := congrArg (fun digits => Nat.ofDigitChars 10 digits 0) h
  simpa using hvalue

/-- The key tells the records apart. -/
theorem dedupKey_inj {kind : String} {r r' : EvaluationRecord}
    (h : dedupKey kind r = dedupKey kind r') : r.id = r'.id := by
  have hvalue : ∀ status : EvaluationStatus, ':' ∉ status.value.toList := by
    intro status
    cases status <;> decide
  have hlist := congrArg String.toList h
  unfold dedupKey at hlist
  simp only [String.toList_append, List.append_assoc, List.append_cancel_left_eq] at hlist
  have hsplit : (toString r.id).toList ++ ':' :: r.status.value.toList =
      (toString r'.id).toList ++ ':' :: r'.status.value.toList := by
    simpa using hlist
  rw [List.append_cons_inj_of_notMem (colon_not_mem_digits r.id) (hvalue r.status)] at hsplit
  exact digits_inj hsplit.1

/-- What a sweep does not repeat: a key to a user. -/
def Notification.onceKey (n : Notification) : Nat × Option String := (n.userId, n.dedupKey)

/-- The notice is not older than the window. -/
def Notification.isWithin (n : Notification) (env : Env) (withinDays : Nat) : Bool :=
  env.now ≤ n.createdAt + withinDays * 86400

/-- `already_notified`: the keys that reached a user within the window. -/
def alreadyNotified (db : Database) (env : Env) (dedupKeys : List String) (withinDays : Nat) :
    List (Nat × Option String) :=
  (db.notifications.filter fun n =>
    n.dedupKey ∈ dedupKeys.map some && n.isWithin env withinDays).map Notification.onceKey

def Database.openRecords (db : Database) : List EvaluationRecord :=
  db.evaluationRecords.rows.filter EvaluationRecord.isOpen

/-- `_current_owner_ids`. -/
def currentOwnerIds (r : EvaluationRecord) (hrIds : List Nat) : List Nat :=
  match r.status with
  | .draft => (scorerSeat r).2.toList
  | .submitted => hrIds
  | .hrApproved => [ownerAfterHrReview r]
  | .deputyApproved => [r.chain.ceoUserId]
  | .finalized | .cancelled => []

/-! ## Reminders -/

/-- The open records that stay at their stage for longer than the reminder allows. -/
def stalledRecords (db : Database) (env : Env) (slaReminderDays : Nat) : List EvaluationRecord :=
  db.openRecords.filter fun r => r.stageEnteredAt + slaReminderDays * 86400 ≤ env.now

def slaReminder (db : Database) (env : Env) (slaReminderDays : Nat) (r : EvaluationRecord)
    (ownerId : Nat) : Notification where
  userId := ownerId
  type := "sla_reminder"
  message := "پرونده " ++ r.evaluationCode ++ " (" ++ db.subjectFullName r ++ ") بیش از " ++
    faDigits (toString slaReminderDays) ++ " روز است در همین مرحله منتظر اقدام شماست"
  link := some (evaluationLink r.id)
  evaluationRecordId := some r.id
  dedupKey := some (dedupKey "sla" r)
  createdAt := env.now

/-- The reminders, before those that were sent are left out. -/
def slaReminders (db : Database) (env : Env) (slaReminderDays : Nat) : List Notification :=
  (stalledRecords db env slaReminderDays).flatMap fun r =>
    (currentOwnerIds r (activeHrIds db)).map (slaReminder db env slaReminderDays r)

/-- `run_sla_sweep`: the notices that it creates. -/
def runSlaSweep (db : Database) (env : Env) (slaReminderDays : Nat) : List Notification :=
  once Notification.onceKey
    (alreadyNotified db env ((stalledRecords db env slaReminderDays).map (dedupKey "sla"))
      slaReminderDays)
    (slaReminders db env slaReminderDays)

/-! ## Orphans -/

/-- The records that the sweep looks at: it takes the HR queue to belong to everybody in HR. -/
def ownedRecords (db : Database) : List EvaluationRecord :=
  db.openRecords.filter fun r => r.status ≠ .submitted

/-- Somebody has to act, and none of those who have to is an active user. -/
def hasNoActiveOwner (db : Database) (r : EvaluationRecord) : Bool :=
  let ownerIds := currentOwnerIds r (activeHrIds db)
  !ownerIds.isEmpty && ownerIds.all fun k => k ∉ activeUserIds db fun _ => true

def orphanReport (db : Database) (env : Env) (r : EvaluationRecord) (hrId : Nat) : Notification where
  userId := hrId
  type := "orphaned_case"
  message := "پرونده " ++ r.evaluationCode ++ " (" ++ db.subjectFullName r ++ ") گیر کرده است: " ++
    "مسئول مرحلهٔ فعلی دیگر کاربر فعالی نیست. مسئول جدید تعیین کنید یا پرونده را لغو کنید."
  link := some (evaluationLink r.id)
  evaluationRecordId := some r.id
  dedupKey := some (dedupKey "orphaned" r)
  createdAt := env.now

/-- The reports, before those that were sent are left out. -/
def orphanReports (db : Database) (env : Env) : List Notification :=
  ((ownedRecords db).filter (hasNoActiveOwner db)).flatMap fun r =>
    (activeHrIds db).map (orphanReport db env r)

/-- `run_orphaned_case_sweep`: the notices that it creates. -/
def runOrphanedCaseSweep (db : Database) (env : Env) : List Notification :=
  once Notification.onceKey
    (alreadyNotified db env ((ownedRecords db).map (dedupKey "orphaned")) env.notificationDedupDays)
    (orphanReports db env)

/-! ## Contracts -/

/-- The active people without an open record whose contract runs out, the soonest first. -/
def expiringPeople (db : Database) (env : Env) (contractExpiryAlertDays : Nat) : List Personnel :=
  sortedBy Personnel.contractEndDate
    (db.personnel.rows.filter fun person =>
      person.status = .active && decide (person.contractEndDate ≤ env.today + contractExpiryAlertDays) &&
        db.openRecords.all fun r => r.subjectPersonnelId ≠ person.id)

def contractKey (person : Personnel) : String := "contract_expiry:" ++ toString person.id

/-- When the contract runs out. -/
def expiryText (env : Env) (person : Personnel) : String :=
  let days : Int := (person.contractEndDate : Int) - env.today
  if 0 ≤ days then faDigits (toString days) ++ " روز دیگر"
  else faDigits (toString |days|) ++ " روز پیش (منقضی‌شده)"

def contractNotice (env : Env) (person : Personnel) (hrId : Nat) : Notification where
  userId := hrId
  type := "contract_expiry"
  message := "قرارداد «" ++ person.fullName ++ "» " ++ expiryText env person ++
    " به پایان می‌رسد و هنوز ارزیابی‌ای برایش آغاز نشده است"
  link := some "/hr/dashboard"
  evaluationRecordId := none
  dedupKey := some (contractKey person)
  createdAt := env.now

/-- The warnings, before those that were sent are left out. -/
def contractNotices (db : Database) (env : Env) (contractExpiryAlertDays : Nat) : List Notification :=
  (expiringPeople db env contractExpiryAlertDays).flatMap fun person =>
    (activeHrIds db).map (contractNotice env person)

/-- `run_contract_expiry_sweep`: the notices that it creates. -/
def runContractExpirySweep (db : Database) (env : Env) (contractExpiryAlertDays : Nat) : List Notification :=
  once Notification.onceKey
    (alreadyNotified db env ((expiringPeople db env contractExpiryAlertDays).map contractKey)
      env.notificationDedupDays)
    (contractNotices db env contractExpiryAlertDays)

/-! ## All of them -/

structure SweepSettings where
  contractExpiryAlertDays : Nat
  slaReminderDays : Nat
  notificationDedupDays : Nat

/-- `run_all_sweeps`, as far as these sweeps go: what they create, and the summary. -/
def runAllSweeps (S : SweepSettings) (db : Database) (env : Env) : List Notification × List (String × Nat) :=
  let contractExpiry := runContractExpirySweep db env S.contractExpiryAlertDays
  let slaReminder := runSlaSweep db env S.slaReminderDays
  let orphanedCase := runOrphanedCaseSweep db env
  (contractExpiry ++ slaReminder ++ orphanedCase,
    [("contract_expiry", contractExpiry.length), ("sla_reminder", slaReminder.length),
      ("orphaned_case", orphanedCase.length)])

end NexaHR
