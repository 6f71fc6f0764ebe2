import NexaHR.Foundations.Page
import NexaHR.Routers.Evaluations

/-! # What a user is shown

Three views of the records, each with its own idea of what concerns a user: the scope of the list
(`api/routers/evaluations.py`), the assistant's queue (`services/ai/tools/evaluations.py`) and the
cards of the dashboard (`api/routers/dashboard.py`).

* `scopeEvaluationsForRole`: the records that a user finds.
* `myOpenCases`: the cases that wait for him.
* `roleOverview`: the cards of his role.
-/

namespace NexaHR

open Foundations

set_option autoImplicit false

/-! ## The list -/

def roleWithoutRecords : HTTPException :=
  ⟨403, "این نقش به پرونده‌های ارزیابی دسترسی ندارد", none⟩

/-- `scope_evaluations_for_role`: the condition that is added to the list query. -/
def scopeEvaluationsForRole (env : Env) (user : CurrentUser) :
    Except HTTPException (EvaluationRecord → Bool) :=
  match user.role with
  | .hr => .ok fun r => !r.hrPanelIsShielded && !decide (user.personnelId = some r.subjectPersonnelId)
  | .unitSupervisor => .ok fun r => r.chain.unitSupervisorUserId = some user.id
  | .deputy => .ok fun r => r.chain.deputyUserId = some user.id
  | .ceo => .ok fun r => r.chain.ceoUserId = user.id
  | .employee =>
    if user.personnelId = none ∨ employeeResultsAreVisible env = false then .ok fun _ => false
    else
      .ok fun r => decide (user.personnelId = some r.subjectPersonnelId) && r.status = .finalized
  | .support => .error roleWithoutRecords

/-! ## The assistant's queue -/

def statusLabel : EvaluationStatus → String
  | .draft => "نمره‌دهی"
  | .submitted => "بررسی منابع انسانی"
  | .hrApproved => "بررسی معاونت"
  | .deputyApproved => "تأیید نهایی مدیرعامل"
  | .finalized => "نهایی‌شده"
  | .cancelled => "لغوشده"

structure CaseItem where
  id : Nat
  evaluationCode : String
  subjectPersonnelId : Nat
  status : EvaluationStatus
  statusLabel : String
  finalWeightedPct : Option Rat
  recommendation : Option String
  subjectName : String
  stageEnteredAt : Nat
  deriving DecidableEq

structure CaseList where
  count : Nat
  cases : List CaseItem
  summary : String
  deriving DecidableEq

def describeRecord (db : Database) (r : EvaluationRecord) : CaseItem where
  id := r.id
  evaluationCode := r.evaluationCode
  subjectPersonnelId := r.subjectPersonnelId
  status := r.status
  statusLabel := statusLabel r.status
  finalWeightedPct := r.finalWeightedPct
  recommendation := r.recommendation
  subjectName := ((db.personnel.get? r.subjectPersonnelId).map Personnel.fullName).getD "?"
  stageEnteredAt := r.stageEnteredAt

/-- The stage condition of `my_open_cases`. -/
def stageCondition (user : CurrentUser) : Except HTTPException (EvaluationRecord → Bool) :=
  match user.role with
  | .unitSupervisor =>
    .ok fun r => r.status = .draft && r.chain.unitSupervisorUserId = some user.id
  | .hr => .ok fun r => r.status = .submitted
  | .deputy =>
    .ok fun r =>
      r.chain.deputyUserId = some user.id && (r.status = .hrApproved || r.status = .draft)
  | .ceo => .ok fun r => r.chain.ceoUserId = user.id && r.status = .deputyApproved
  | .employee =>
    if user.personnelId = none then .ok fun _ => false
    else
      .ok fun r => r.status = .finalized && decide (user.personnelId = some r.subjectPersonnelId)
  | .support => .error roleWithoutRecords

/-- How many cases the assistant asks for: fifteen unless it says otherwise, and never over fifty. -/
def caseLimit (limit : Int) : Nat := (max 1 (min (if limit = 0 then 15 else limit) 50)).toNat

def casesWhere (db : Database) (condition : EvaluationRecord → Bool) (limit : Int) :
    List EvaluationRecord :=
  (sortedBy EvaluationRecord.stageEnteredAt (db.evaluationRecords.rows.filter condition)).take
    (caseLimit limit)

def myOpenCases (db : Database) (user : CurrentUser) (limit : Int) : Except HTTPException CaseList := do
  let condition ← stageCondition user
  let items := (casesWhere db condition limit).map (describeRecord db)
  pure
    { count := items.length
      cases := items
      summary := "پرونده‌های بازِ روی میز شما (" ++ toString items.length ++ " پرونده)" }

/-! ## The dashboard -/

structure RoleOverviewCard where
  key : String
  label : String
  value : Rat
  tone : String
  hint : Option String := none
  suffix : Option String := none
  deriving DecidableEq

structure RoleOverview where
  role : UserRole
  cards : List RoleOverviewCard
  deriving DecidableEq

inductive OverviewScope
  | role | self
  deriving DecidableEq, Repr

/-- `_count_records`. -/
def countRecords (db : Database) (condition : EvaluationRecord → Bool) : Nat :=
  db.evaluationRecords.rows.countP condition

/-- `func.avg`, which leaves empty columns out. -/
def averageOf (values : List Rat) : Option Rat :=
  if values.isEmpty then none else some (values.sum / values.length)

def selfCards (db : Database) (personnelId : Nat) : List RoleOverviewCard :=
  let mine := fun (r : EvaluationRecord) => decide (r.subjectPersonnelId = personnelId)
  let finalized := fun (r : EvaluationRecord) => decide (r.status = .finalized)
  let average := averageOf ((db.evaluationRecords.rows.filter fun r => mine r && finalized r).filterMap
    EvaluationRecord.finalWeightedPct)
  [{ key := "finalized"
     label := "ارزیابی‌های نهایی‌شده"
     value := countRecords db fun r => mine r && finalized r
     tone := "neutral" },
   { key := "avg"
     label := "میانگین امتیاز نهایی (٪)"
     value := (average.map (roundTo 1)).getD 0
     tone := "green" },
   { key := "pending_ack"
     label := "هنوز ندیده‌اید"
     value := countRecords db fun r => mine r && finalized r && r.acknowledgedAt.isNone
     tone := "amber" }]

/-- `_gated_self_cards`. -/
def gatedSelfCards (db : Database) (env : Env) (personnelId : Option Nat) : List RoleOverviewCard :=
  match personnelId with
  | none => []
  | some personnelId =>
    if env.moduleEnabled .employeeOverviewCards && env.moduleEnabled .employeeEvaluationVisibility then
      selfCards db personnelId
    else []

def supervisorCards (db : Database) (uid : Nat) : List RoleOverviewCard :=
  let mine := fun (r : EvaluationRecord) => decide (r.chain.unitSupervisorUserId = some uid)
  [{ key := "subordinates"
     label := "افراد زیرمجموعه"
     value := (db.evaluationAccess.rows.countP fun access =>
       access.chain.unitSupervisorUserId = some uid : Nat)
     tone := "neutral" },
   { key := "drafts"
     label := "پیش‌نویس باز"
     value := countRecords db fun r => mine r && r.status = .draft
     tone := "amber" },
   { key := "in_review"
     label := "در جریان تأیید"
     value := countRecords db fun r =>
       mine r && decide (r.status ∈ [EvaluationStatus.submitted, .hrApproved, .deputyApproved])
     tone := "pulse" },
   { key := "finalized"
     label := "نهایی‌شده"
     value := countRecords db fun r => mine r && r.status = .finalized
     tone := "green" }]

def deputyCards (db : Database) (uid : Nat) : List RoleOverviewCard :=
  let mine := fun (r : EvaluationRecord) => decide (r.chain.deputyUserId = some uid)
  [{ key := "awaiting_me"
     label := "در انتظار تأیید من"
     value := countRecords db fun r =>
       mine r && r.status = .hrApproved && r.chain.unitSupervisorUserId.isSome
     tone := "amber" },
   { key := "manager_scoring"
     label := "امتیازدهی مدیر (با من)"
     value := countRecords db fun r =>
       mine r && r.status = .hrApproved && r.chain.unitSupervisorUserId.isNone
     tone := "pulse" },
   { key := "finalized"
     label := "نهایی‌شده (حوزهٔ من)"
     value := countRecords db fun r => mine r && r.status = .finalized
     tone := "green" }]

def ceoCards (db : Database) (uid : Nat) : List RoleOverviewCard :=
  let mine := fun (r : EvaluationRecord) => decide (r.chain.ceoUserId = uid)
  [{ key := "awaiting_me"
     label := "در انتظار تأیید نهایی"
     value := countRecords db fun r => mine r && r.status = .deputyApproved
     tone := "amber" },
   { key := "finalized"
     label := "نهایی‌شده (حوزهٔ من)"
     value := countRecords db fun r => mine r && r.status = .finalized
     tone := "green" },
   { key := "total"
     label := "کل پرونده‌های من"
     value := countRecords db mine
     tone := "neutral" }]

def hrCards (db : Database) : List RoleOverviewCard :=
  let finalized := fun (r : EvaluationRecord) => decide (r.status = .finalized)
  let eligible := db.personnel.rows.countP fun person => person.status = .active
  let covered :=
    ((db.evaluationRecords.rows.filter finalized).map
      EvaluationRecord.subjectPersonnelId).dedup.length
  [{ key := "eligible"
     label := "کل پرسنل مشمول ارزیابی"
     value := eligible
     tone := "neutral" },
   { key := "awaiting_hr"
     label := "در انتظار بررسی منابع انسانی"
     value := countRecords db fun r => r.status = .submitted
     tone := "amber" },
   { key := "finalized"
     label := "نهایی‌شده"
     value := countRecords db finalized
     tone := "green" },
   { key := "completion"
     label := "درصد تکمیل"
     value := if eligible = 0 then 0 else roundTo 1 (covered * 100 / eligible)
     tone := "neutral"
     hint := some (faDigits (toString covered) ++ " از " ++ faDigits (toString eligible) ++ " نفر")
     suffix := some "٪" }]

def roleOverview (db : Database) (env : Env) (scope : OverviewScope) (user : CurrentUser) :
    RoleOverview where
  role := user.role
  cards :=
    match scope with
    | .self => gatedSelfCards db env user.personnelId
    | .role =>
      match user.role with
      | .unitSupervisor => supervisorCards db user.id
      | .deputy => deputyCards db user.id
      | .ceo => ceoCards db user.id
      | .hr => hrCards db
      | .employee => gatedSelfCards db env user.personnelId
      | .support => []

end NexaHR
