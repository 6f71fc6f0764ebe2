import NexaHR.Routers.Guards
import NexaHR.Services.Transition

/-! # Opening records

The two ways to open a record: `create_evaluation`, by the scorer of one person, and the bulk
creation of `services/bulk_evaluation.py`, by HR for a cohort.

* `Opening`: what every record of one request is stamped with.
* `insertRecord`: a new draft with the seats of an access row.
* `plan`, `execute`: the dry run of a cohort and the real one, with what they report.
* `executeBulk`: the database that `execute` leaves.
-/

namespace NexaHR

open Foundations

set_option autoImplicit false

/-! ## A new draft -/

namespace Database

def accessOf (db : Database) (personnelId : Nat) : Option EvaluationAccess :=
  db.evaluationAccess.rows.find? fun access => access.personnelId = personnelId

def openRecordOf (db : Database) (personnelId : Nat) : Option EvaluationRecord :=
  db.evaluationRecords.rows.find? fun r => r.subjectPersonnelId = personnelId && r.isOpen

def openPeriod (db : Database) : Option EvaluationPeriod :=
  db.evaluationPeriods.rows.find? fun period => period.status = .open

end Database

structure Opening where
  periodId : Option Nat
  scoringSchemeId : Option Nat
  indicatorFrameworkId : Nat
  now : Nat
  deriving DecidableEq

def openingOf (db : Database) (env : Env) (framework : IndicatorFramework) : Opening where
  periodId := db.openPeriod.map EvaluationPeriod.id
  scoringSchemeId := (activeScheme db).map ScoringScheme.id
  indicatorFrameworkId := framework.id
  now := env.now

/-- `EVL-{seq:04d}`. -/
def evaluationCode (seq : Nat) : String :=
  let digits := toString seq
  "EVL-" ++ String.ofList (List.replicate (4 - digits.length) '0') ++ digits

def newRecord (o : Opening) (access : EvaluationAccess) (hrReviewSkipped : Bool) (code : String)
    (id : Nat) : EvaluationRecord where
  id := id
  evaluationCode := code
  subjectPersonnelId := access.personnelId
  chain := access.chain
  hrReviewSkipped := hrReviewSkipped
  periodId := o.periodId
  scoringSchemeId := o.scoringSchemeId
  indicatorFrameworkId := some o.indicatorFrameworkId
  status := .draft
  createdAt := o.now
  stageEnteredAt := o.now

theorem newRecord_id (o : Opening) (access : EvaluationAccess) (hrReviewSkipped : Bool)
    (code : String) (id : Nat) : HasId.id (newRecord o access hrReviewSkipped code id) = id := rfl

def insertRecord (db : Database) (o : Opening) (access : EvaluationAccess) (hrReviewSkipped : Bool) :
    Database :=
  { db with
    evaluationRecords :=
      db.evaluationRecords.insert
        (newRecord o access hrReviewSkipped (evaluationCode (db.evaluationCodeSeq + 1)))
        (newRecord_id o access hrReviewSkipped _)
    evaluationCodeSeq := db.evaluationCodeSeq + 1 }

/-! ## One record -/

def createEvaluation (db : Database) (env : Env) (user : CurrentUser) (personnelId : Nat) :
    Except HTTPException Database := do
  requireChainStage user .unitSupervisor
  let personnel ← require (db.personnel.get? personnelId) ⟨404, "پرسنل یافت نشد", none⟩
  ensure (personnel.status = .active)
    ⟨400, "این پرسنل غیرفعال است؛ امکان شروع ارزیابی برای او وجود ندارد", none⟩
  let access ← require (db.accessOf personnelId)
    ⟨400, "دسترسی ارزیابی برای این پرسنل هنوز توسط منابع انسانی تعریف نشده است", none⟩
  let inactiveSeats := inactiveSeatLabels db access.chain
  ensure (inactiveSeats = [])
    ⟨400, "صندلی‌های غیرفعال در زنجیرهٔ ارزیابی این فرد: " ++ "، ".intercalate inactiveSeats ++
      "؛ ابتدا منابع انسانی باید زنجیره را اصلاح کند", none⟩
  let seat := scorerField access.chain.unitSupervisorUserId access.chain.deputyUserId
  ensure (mayActAt user.role (seatRole seat) = true ∧ access.chain.seat seat = some user.id)
    ⟨403, "فقط «" ++ seatLabel seat ++ "»ِ مربوطه می‌تواند ارزیابی این فرد را آغاز کند", none⟩
  ensure (db.openRecordOf personnelId = none)
    ⟨409, "برای این پرسنل یک ارزیابی باز (نهایی‌نشده) وجود دارد؛ ابتدا همان پرونده را تکمیل کنید.",
      (db.openRecordOf personnelId).map EvaluationRecord.id⟩
  let (framework, framed) := ensureFramework db
  let created := insertRecord framed (openingOf db env framework) access (subjectBelongsToHr db personnelId)
  pure
    { created with
      auditLog := created.auditLog ++
        [{ actorUserId := some user.id
           eventType := "status_changed"
           evaluationRecordId := some created.evaluationRecords.seq
           newStatus := some .draft
           createdAt := env.now }] }

/-! ## A cohort -/

inductive BulkOutcome
  | created | skippedAlreadyOpen | blockedInactive | blockedNoAccessRow | blockedInactiveSeat
  deriving DecidableEq, Repr

structure CohortFilter where
  orgUnit : Option String
  onlyManagers : Option Bool
  contractEndsBefore : Option Nat

def CohortFilter.admits (cohort : CohortFilter) (person : Personnel) : Bool :=
  (cohort.orgUnit.filter (· ≠ "")).all (· = person.orgUnit) &&
    cohort.onlyManagers.all (· = person.isManager) &&
    cohort.contractEndsBefore.all (person.contractEndDate ≤ ·)

def loadCohort (db : Database) (cohort : CohortFilter) : List Personnel :=
  (db.personnel.rows.filter cohort.admits).mergeSort fun a b => a.fullName ≤ b.fullName

/-- `_plan_one`: what the cohort means for one person. -/
def planOne (db : Database) (person : Personnel) : BulkOutcome :=
  if (db.openRecordOf person.id).isSome then .skippedAlreadyOpen
  else if person.status ≠ .active then .blockedInactive
  else
    match db.accessOf person.id with
    | none => .blockedNoAccessRow
    | some access =>
      if inactiveSeatLabels db access.chain = [] then .created else .blockedInactiveSeat

/-- What will become, or has become, of one person. -/
structure PersonPlan where
  personnelId : Nat
  fullName : String
  orgUnit : String
  outcome : BulkOutcome
  evaluationId : Option Nat
  evaluationCode : Option String
  assigneeUserId : Option Nat
  deriving DecidableEq

/-- The plan of one person names the record that is open already, or the scorer of the new one. -/
def personPlan (db : Database) (person : Personnel) : PersonPlan where
  personnelId := person.id
  fullName := person.fullName
  orgUnit := person.orgUnit
  outcome := planOne db person
  evaluationId := (db.openRecordOf person.id).map EvaluationRecord.id
  evaluationCode := (db.openRecordOf person.id).map EvaluationRecord.evaluationCode
  assigneeUserId :=
    if planOne db person = .created then (db.accessOf person.id).bind fun access => access.chain.scorer
    else none

/-- The dry run. -/
def plan (db : Database) (cohort : CohortFilter) : List PersonPlan :=
  (loadCohort db cohort).map (personPlan db)

/-- `execute`, for one plan. The access rows and the units were read before, in `db`. -/
def executeOne (db : Database) (opening : Opening) (d : Database) (p : PersonPlan) :
    Database × PersonPlan :=
  match p.outcome, db.accessOf p.personnelId with
  | .created, some access =>
    let created := insertRecord d opening access (subjectBelongsToHr db p.personnelId)
    (created,
      { p with
        evaluationId := some created.evaluationRecords.seq
        evaluationCode := some (evaluationCode created.evaluationCodeSeq) })
  | _, _ => (d, p)

def executePlans (db : Database) (opening : Opening) :
    Database → List PersonPlan → Database × List PersonPlan
  | d, [] => (d, [])
  | d, p :: plans =>
    let one := executeOne db opening d p
    let rest := executePlans db opening one.1 plans
    (rest.1, one.2 :: rest.2)

/-- `execute`, with the plans as it reports them. -/
def execute (db : Database) (env : Env) (cohort : CohortFilter) : Database × List PersonPlan :=
  let (framework, framed) := ensureFramework db
  executePlans db (openingOf db env framework) framed (plan db cohort)

/-- The access rows of the people that a record is opened for. -/
def plannedAccess (db : Database) (people : List Personnel) : List EvaluationAccess :=
  (people.filter fun person => planOne db person = .created).filterMap fun person =>
    db.accessOf person.id

def assignedMessage (count : Nat) : String :=
  toString count ++ " ارزیابی جدید برای شما آغاز شد و منتظر نمره‌دهی است"

def bulkNotices (env : Env) (accesses : List EvaluationAccess) : List Notification :=
  let assignees := accesses.filterMap fun access => access.chain.scorer
  assignees.dedup.flatMap fun userId =>
    notify env [userId] "bulk_evaluations_assigned" (assignedMessage (assignees.count userId)) none
      (some "/")

/-- A draft for everybody the plan allows one. -/
def executeBulk (db : Database) (env : Env) (people : List Personnel) : Database :=
  let (framework, framed) := ensureFramework db
  let opening := openingOf db env framework
  (plannedAccess db people).foldl
    (fun d access => insertRecord d opening access (subjectBelongsToHr db access.personnelId)) framed

theorem planOne_eq_created {db : Database} {person : Personnel} :
    planOne db person = .created ↔
      db.openRecordOf person.id = none ∧ person.status = .active ∧
        ∃ access, db.accessOf person.id = some access ∧ inactiveSeatLabels db access.chain = [] := by
  unfold planOne
  cases hopen : db.openRecordOf person.id with
  | some r => simp
  | none =>
    by_cases hactive : person.status = .active
    · cases haccess : db.accessOf person.id with
      | none => simp [hactive]
      | some access => simp [hactive]
    · simp [hactive]

theorem accessOf_personnelId {db : Database} {personnelId : Nat} {access : EvaluationAccess}
    (h : db.accessOf personnelId = some access) : access.personnelId = personnelId := by
  have hfound := List.find?_some h
  simpa using hfound

section

variable {db : Database} {opening : Opening} {person : Personnel} {people : List Personnel}
  {access : EvaluationAccess}

theorem plannedAccess_cons_created (h : planOne db person = .created)
    (haccess : db.accessOf person.id = some access) :
    plannedAccess db (person :: people) = access :: plannedAccess db people := by
  simp [plannedAccess, h, haccess]

theorem plannedAccess_cons_other (h : planOne db person ≠ .created) :
    plannedAccess db (person :: people) = plannedAccess db people := by
  simp [plannedAccess, h]

theorem executeOne_created (d : Database) (h : planOne db person = .created)
    (haccess : db.accessOf person.id = some access) :
    executeOne db opening d (personPlan db person) =
      (insertRecord d opening access (subjectBelongsToHr db person.id),
        { personPlan db person with
          evaluationId := some (d.evaluationRecords.seq + 1)
          evaluationCode := some (evaluationCode (d.evaluationCodeSeq + 1)) }) := by
  simp only [executeOne, personPlan, h, haccess]
  rfl

theorem executeOne_other (d : Database) (h : planOne db person ≠ .created) :
    executeOne db opening d (personPlan db person) = (d, personPlan db person) := by
  unfold executeOne
  split
  next hcreated _ => exact absurd hcreated h
  next => rfl

/-- The reports do not change what is written. -/
theorem executePlans_fst (db : Database) (opening : Opening) (d : Database) (people : List Personnel) :
    (executePlans db opening d (people.map (personPlan db))).1 =
      (plannedAccess db people).foldl
        (fun d access => insertRecord d opening access (subjectBelongsToHr db access.personnelId)) d := by
  induction people generalizing d with
  | nil => rfl
  | cons person people ih =>
    rw [List.map_cons]
    unfold executePlans
    rw [ih]
    by_cases hplan : planOne db person = .created
    · obtain ⟨-, -, access, haccess, -⟩ := planOne_eq_created.mp hplan
      rw [executeOne_created d hplan haccess, plannedAccess_cons_created hplan haccess, List.foldl_cons,
        accessOf_personnelId haccess]
    · rw [executeOne_other d hplan, plannedAccess_cons_other hplan]

theorem execute_fst (db : Database) (env : Env) (cohort : CohortFilter) :
    (execute db env cohort).1 = executeBulk db env (loadCohort db cohort) :=
  executePlans_fst db (openingOf db env (ensureFramework db).1) (ensureFramework db).2 (loadCohort db cohort)

end

def runBulkCreate (db : Database) (env : Env) (user : CurrentUser) (cohort : CohortFilter) :
    Except HTTPException Database := do
  requireRoles user [.hr]
  ensureModuleEnabled env .periods
  let people := loadCohort db cohort
  let executed := executeBulk db env people
  pure
    { executed with
      auditLog := executed.auditLog ++
        [{ actorUserId := some user.id, eventType := "evaluations_bulk_created", createdAt := env.now }]
      notifications := executed.notifications ++ bulkNotices env (plannedAccess db people) }

end NexaHR
