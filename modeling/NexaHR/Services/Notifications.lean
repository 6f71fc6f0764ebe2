import NexaHR.Services.Evaluation
import Mathlib.Data.List.Dedup

/-! # Notifications

`services/notifications.py`: the notifications that an event creates, each as a list. A recipient
who is named twice is told once.
-/

namespace NexaHR

open Foundations

set_option autoImplicit false

/-! ## Recipients -/

def activeUserIds (db : Database) (p : User → Bool) : List Nat :=
  (db.users.rows.filter fun u => u.isActive && p u).map User.id

def activeHrIds (db : Database) : List Nat := activeUserIds db fun u => u.role = .hr

/-- The HR queue without the subject of the record. -/
def hrQueueIds (db : Database) (r : EvaluationRecord) : List Nat :=
  activeUserIds db fun u => u.role = .hr && decide (u.personnelId ≠ some r.subjectPersonnelId)

def subjectUserIds (db : Database) (personnelId : Nat) : List Nat :=
  activeUserIds db fun u => u.personnelId = some personnelId

/-- The scorer, unless he is the one at the end of the chain. -/
def tellTheScorer (r : EvaluationRecord) (evaluatorId : Option Nat) : List Nat :=
  match evaluatorId with
  | none => []
  | some userId => if userId = r.chain.ceoUserId then [] else [userId]

theorem mem_activeUserIds {db : Database} {p : User → Bool} {k : Nat} :
    k ∈ activeUserIds db p ↔ ∃ u ∈ db.users, u.isActive = true ∧ p u = true ∧ u.id = k := by
  unfold activeUserIds
  simp only [List.mem_map, List.mem_filter, Bool.and_eq_true, Table.mem_def]
  constructor
  · rintro ⟨u, ⟨hu, ha, hp⟩, hk⟩
    exact ⟨u, hu, ha, hp, hk⟩
  · rintro ⟨u, hu, ha, hp, hk⟩
    exact ⟨u, ⟨hu, ha, hp⟩, hk⟩

theorem mem_hrQueueIds {db : Database} {r : EvaluationRecord} {k : Nat} :
    k ∈ hrQueueIds db r ↔ ∃ u ∈ db.users, u.isActive = true ∧ u.role = .hr ∧
      u.personnelId ≠ some r.subjectPersonnelId ∧ u.id = k := by
  unfold hrQueueIds
  rw [mem_activeUserIds]
  simp [and_assoc]

/-! ## Creating -/

def evaluationLink (recordId : Nat) : String := "/evaluations/" ++ toString recordId

def notify (env : Env) (userIds : List Nat) (type message : String) (recordId : Option Nat)
    (link : Option String) : List Notification :=
  userIds.dedup.map fun userId =>
    { userId := userId
      type := type
      message := message
      link := link
      evaluationRecordId := recordId
      createdAt := env.now }

/-- `notify_once`: nothing when the same key reached the user within the window. -/
def notifyOnce (env : Env) (db : Database) (userId : Nat) (type message dedupKey : String)
    (link : Option String) : List Notification :=
  if db.notifications.any fun n =>
      n.userId = userId && n.dedupKey = some dedupKey &&
        decide (env.now ≤ n.createdAt + env.notificationDedupDays * 86400) then []
  else
    [{ userId := userId
       type := type
       message := message
       link := link
       evaluationRecordId := none
       dedupKey := some dedupKey
       createdAt := env.now }]

/-! ## Workflow -/

/-- The recipients and the message of an action; `none` where the dispatch has no branch. -/
def recipientsFor (db : Database) (r : EvaluationRecord) (a : Action) : Option (List Nat × String) :=
  let head := "پرونده " ++ r.evaluationCode ++ " (" ++ db.subjectFullName r ++ ")"
  let evaluatorId := (scorerSeat r).2
  let afterHrId := ownerAfterHrReview r
  let inQueue := head ++ " در صف بررسی منابع انسانی قرار گرفت"
  let awaitsReview := head ++ " در انتظار بررسی و تأیید شماست"
  let awaitsFinal := head ++ " در انتظار تأیید نهایی شماست"
  let returnedByCeo := head ++ " توسط مدیرعامل برگشت داده شد؛ دلیل در کامنت‌های پرونده"
  let cancelledBy := fun (by' : String) =>
    head ++ " توسط " ++ by' ++ " لغو شد؛ دلیل در کامنت‌های پرونده"
  match a with
  | .submit | .managerSubmit | .ceoSubmit => some (hrQueueIds db r, inQueue)
  | .submitHrSubject => some ([afterHrId], awaitsReview)
  | .managerSubmitHrSubject | .ceoSubmitHrSubject => some ([r.chain.ceoUserId], awaitsFinal)
  | .hrApprove => some ([afterHrId], awaitsReview)
  | .hrApproveManager | .deputyApprove => some ([r.chain.ceoUserId], awaitsFinal)
  | .ceoFinalize => some (tellTheScorer r evaluatorId, head ++ " تأیید نهایی شد")
  | .hrFinalizeDirectCeo =>
    some ([r.chain.ceoUserId], head ++ " توسط منابع انسانی تأیید نهایی شد")
  | .hrReturn =>
    some (evaluatorId.toList,
      head ++ " توسط منابع انسانی برگشت داده شد؛ دلیل در کامنت‌های پرونده")
  | .deputyReturn =>
    some (hrQueueIds db r, head ++ " توسط معاونت برگشت داده شد؛ دلیل در کامنت‌های پرونده")
  | .deputyReturnHrSubject | .ceoReturnManagerHrSubject | .ceoReturnCeoOnly =>
    some (tellTheScorer r evaluatorId,
      head ++ " برگشت داده شد و در انتظار اصلاح شماست؛ " ++ "دلیل در کامنت‌های پرونده")
  | .ceoReturn => some ([afterHrId], returnedByCeo)
  | .ceoReturnManager => some (hrQueueIds db r, returnedByCeo)
  | .cancel => some (r.chain.occupants, cancelledBy "منابع انسانی")
  | .cancelOnSeparation | .cancelHrSubject => some (r.chain.occupants, cancelledBy "مدیریت")
  -- The two returns of a chain without a deputy are not dispatched.
  | .ceoReturnNoDeputy | .ceoReturnNoDeputyHrSubject => none

def workflowType (a : Action) : String :=
  if a.isCancel then "workflow_cancel" else "workflow_" ++ a.key

def employeeResultsAreVisible (env : Env) : Bool := env.moduleEnabled .employeeEvaluationVisibility

/-- The notice to the subject of a finalized record, if the subject can see the result. -/
def notifySubject (db : Database) (env : Env) (r : EvaluationRecord) (a : Action) :
    List Notification :=
  if (a = .ceoFinalize ∨ a = .hrFinalizeDirectCeo) ∧ employeeResultsAreVisible env = true then
    notify env (subjectUserIds db r.subjectPersonnelId) "evaluation_finalized_self"
      ("ارزیابی عملکرد شما (" ++ r.evaluationCode ++
        ") نهایی شد؛ نتیجه در «کارنامه من» قابل مشاهده است") (some r.id) (some "/me")
  else []

/-- `notify_for_workflow_action`. -/
def notifyForWorkflowAction (db : Database) (env : Env) (r : EvaluationRecord) (a : Action) :
    List Notification :=
  (match recipientsFor db r a with
    | some (recipients, message) =>
      notify env recipients (workflowType a) message (some r.id) (some (evaluationLink r.id))
    | none => []) ++
  notifySubject db env r a

def notifyStageOwnerReassigned (db : Database) (env : Env) (r : EvaluationRecord)
    (newOwnerId : Nat) (stageLabel : String) : List Notification :=
  notify env [newOwnerId] "workflow_reassigned"
    ("پرونده " ++ r.evaluationCode ++ " (" ++ db.subjectFullName r ++ ") به‌عنوان " ++
      "«" ++ stageLabel ++ "» به شما واگذار شد") (some r.id) (some (evaluationLink r.id))

/-! ## Vacated seats -/

def maxListedSeats : Nat := 10

def seatList (seats : List OccupiedSeat) : String :=
  "، ".intercalate ((seats.take maxListedSeats).map fun seat => seat.code ++ " (" ++ seat.label ++ ")") ++
    (if maxListedSeats < seats.length then
      " و " ++ faDigits (toString (seats.length - maxListedSeats)) ++ " مورد دیگر" else "")

def vacatedKey (env : Env) (userId : Nat) (seats : List OccupiedSeat) : String :=
  "seats_vacated:" ++ toString userId ++ ":" ++ env.fingerprint (seats.map OccupiedSeat.code).dedup

/-- The seats on records of the HR unit go to the deputy and the chief executive of each record. -/
def notifyShieldedSeats (db : Database) (env : Env) (userId : Nat) (personLabel : String)
    (seats : List OccupiedSeat) : List Notification :=
  let sitsAbove := fun (recipient : Nat) (seat : OccupiedSeat) =>
    decide (seat.deputyUserId = some recipient) || decide (seat.ceoUserId = recipient)
  let recipients := (seats.flatMap fun seat => seat.deputyUserId.toList ++ [seat.ceoUserId]).dedup
  (recipients.filter fun k => decide (k ≠ userId) && (db.users.get? k).any User.isActive).flatMap
    fun recipient =>
      let own := seats.filter (sitsAbove recipient)
      let records := (own.map OccupiedSeat.recordId).dedup
      notifyOnce env db recipient "seats_vacated"
        ("«" ++ personLabel ++ "» از سازمان خارج شد و در " ++ faDigits (toString own.length) ++
          " پروندهٔ بازِ " ++ "واحد منابع انسانی مسئولِ مرحله بود: " ++ seatList own ++
          ". این پرونده‌ها از " ++
          "پنل منابع انسانی قابل رسیدگی نیستند، پس تعیینِ جایگزین یا لغو با شماست.")
        (vacatedKey env userId own)
        (match records with
          | [recordId] => some (evaluationLink recordId)
          | _ => none)

/-- `notify_vacated_seats`: who has to replace a user that left. -/
def notifyVacatedSeats (db : Database) (env : Env) (userId : Nat) (personLabel : String) :
    List Notification :=
  let seats := occupiedSeatsInOpenRecords db userId
  let openSeats := seats.filter fun seat => !seat.shielded
  let toHr :=
    if openSeats = [] then []
    else
      (activeHrIds db).flatMap fun hrId =>
        notifyOnce env db hrId "seats_vacated"
          ("«" ++ personLabel ++ "» از سازمان خارج شد و در " ++
            faDigits (toString openSeats.length) ++ " پروندهٔ باز " ++ "مسئولِ مرحله بود: " ++
            seatList openSeats ++ ". برای هرکدام با «تغییر مسئول مرحله» " ++
            "جایگزین تعیین کنید، وگرنه آن پرونده‌ها در همان مرحله می‌مانند.")
          (vacatedKey env userId openSeats)
          (some ("/hr/queue?seat_user_id=" ++ toString userId ++ "&tab=all"))
  toHr ++ notifyShieldedSeats db env userId personLabel (seats.filter OccupiedSeat.shielded)

end NexaHR
