import NexaHR.Services.Notifications
import NexaHR.Services.ScoringScheme
import NexaHR.Services.SelfEvaluation
import NexaHR.System.Step

/-! # Improvement plans

`api/routers/improvement_plans.py`: HR writes a plan for a result below the cap of its scheme and follows it to
its end; the owner of a plan ticks its goals off. The assistant calls the same functions, and the two times
that the database writes by itself are left out.

* `eligible`, `listEligibleEvaluations`: the results that still need a plan.
* `createPlan`, `updatePlan`, `completePlan`, `cancelPlan`: what HR does with a plan.
* `addGoal`, `updateGoal`, `deleteGoal`: the goals.
* `PlanSteps`: a request to the plans, or to the rest of the system.
-/

namespace NexaHR

open Foundations

set_option autoImplicit false

/-! ## Rows -/

inductive ImprovementPlanStatus
  | «open» | completed | cancelled
  deriving DecidableEq, Repr

structure ImprovementPlan where
  id : Nat
  evaluationRecordId : Nat
  personnelId : Nat
  title : String
  ownerUserId : Option Nat
  status : ImprovementPlanStatus
  reviewDate : Nat
  summary : Option String
  followUpEvaluationId : Option Nat := none
  createdByUserId : Option Nat
  completedAt : Option Nat := none
  deriving DecidableEq

structure ImprovementPlanGoal where
  id : Nat
  planId : Nat
  description : String
  isDone : Bool := false
  displayOrder : Nat
  deriving DecidableEq

instance : HasId ImprovementPlan := ⟨ImprovementPlan.id⟩
instance : HasId ImprovementPlanGoal := ⟨ImprovementPlanGoal.id⟩

/-- The database with the plans. -/
structure PlanDb where
  db : Database
  plans : Table ImprovementPlan
  goals : Table ImprovementPlanGoal

/-- What a request reads besides, with the switch of this module. -/
structure PlanEnv extends Env where
  improvementPlansRefusal : Option String

namespace PlanDb

def log (p : PlanDb) (entries : List AuditLog) : PlanDb := { p with db := p.db.log entries }

def notify (p : PlanDb) (notifications : List Notification) : PlanDb :=
  { p with db := { p.db with notifications := p.db.notifications ++ notifications } }

def goalsOf (p : PlanDb) (planId : Nat) : List ImprovementPlanGoal :=
  p.goals.rows.filter fun goal => goal.planId = planId

end PlanDb

/-! ## Payloads -/

def planTitleMax : Nat := 200

def planSummaryMax : Nat := 4000

def planGoalMax : Nat := 1000

structure ImprovementPlanCreate where
  evaluationRecordId : Nat
  title : String
  reviewDate : Nat
  ownerUserId : Option Nat := none
  summary : Option String := none
  goals : List String := []

/-- A field that is not given keeps its value. -/
structure ImprovementPlanUpdate where
  title : Option (Option String) := none
  reviewDate : Option (Option Nat) := none
  ownerUserId : Option (Option Nat) := none
  summary : Option (Option String) := none
  followUpEvaluationId : Option (Option Nat) := none

structure GoalUpdate where
  description : Option (Option String) := none
  isDone : Option (Option Bool) := none

def summaryErrors (summary : Option String) : List String :=
  let text := stripWhitespace (summary.getD "")
  if planSummaryMax < text.length then lengthError "شرح" text planSummaryMax else []

def ImprovementPlanCreate.errors (payload : ImprovementPlanCreate) : List String :=
  lengthError "عنوان" (stripWhitespace payload.title) planTitleMax ++ summaryErrors payload.summary

/-- The texts of the goals that a new plan starts with, each with its place in the payload. -/
def ImprovementPlanCreate.goalTexts (payload : ImprovementPlanCreate) : List (String × Nat) :=
  (payload.goals.map fun text => strip (stripWhitespace text)).zipIdx.filter fun goal => goal.1 ≠ ""

namespace ImprovementPlanUpdate

def errors (payload : ImprovementPlanUpdate) : List String :=
  ((payload.title.join.map fun text => lengthError "عنوان" (stripWhitespace text) planTitleMax).getD []) ++
    summaryErrors payload.summary.join

/-- A column that must not be null is given as null. -/
def setsNull (payload : ImprovementPlanUpdate) : Bool :=
  payload.title = some none || payload.reviewDate = some none

end ImprovementPlanUpdate

def ImprovementPlan.updated (plan : ImprovementPlan) (payload : ImprovementPlanUpdate) : ImprovementPlan :=
  { plan with
    title := (payload.title.join.map stripWhitespace).getD plan.title
    reviewDate := payload.reviewDate.join.getD plan.reviewDate
    ownerUserId := payload.ownerUserId.getD plan.ownerUserId
    summary := (payload.summary.map (Option.map stripWhitespace)).getD plan.summary
    followUpEvaluationId := payload.followUpEvaluationId.getD plan.followUpEvaluationId }

def goalErrors (description : String) : List String := lengthError "شرح" (stripWhitespace description) planGoalMax

namespace GoalUpdate

def errors (payload : GoalUpdate) : List String := (payload.description.join.map goalErrors).getD []

def setsNull (payload : GoalUpdate) : Bool := payload.description = some none || payload.isDone = some none

end GoalUpdate

def ImprovementPlanGoal.updated (goal : ImprovementPlanGoal) (payload : GoalUpdate) : ImprovementPlanGoal :=
  { goal with
    description := (payload.description.join.map stripWhitespace).getD goal.description
    isDone := payload.isDone.join.getD goal.isDone }

def unprocessable (errors : List String) : HTTPException := ⟨422, persianValidationMessage errors, none⟩

/-! ## Checks -/

def planNotFound : HTTPException := ⟨404, "برنامه بهبود یافت نشد", none⟩

def getPlanOr404 (p : PlanDb) (planId : Nat) : Except HTTPException ImprovementPlan :=
  require (p.plans.get? planId) planNotFound

def ensurePlanOpen (plan : ImprovementPlan) : Except HTTPException Unit :=
  ensure (plan.status = .open) ⟨409, "این برنامه دیگر باز نیست؛ امکان تغییر اهداف وجود ندارد", none⟩

def planRoles : List UserRole := [.hr, .unitSupervisor, .deputy, .ceo]

def isOwner (plan : ImprovementPlan) (user : CurrentUser) : Bool := plan.ownerUserId = some user.id

def ensureCanViewPlan (plan : ImprovementPlan) (user : CurrentUser) : Except HTTPException Unit :=
  ensure (user.role = .hr ∨ isOwner plan user = true) ⟨403, "این برنامهٔ بهبود به شما سپرده نشده است", none⟩

def ensureOwnerIsValid (db : Database) (ownerUserId : Option Nat) : Except HTTPException Unit :=
  match ownerUserId with
  | none => .ok ()
  | some userId =>
    ensure ((db.users.get? userId).any User.isActive = true)
      ⟨400, "کاربر مسئول پیگیری یافت نشد یا غیرفعال است", none⟩

def ensurePlansEnabled (env : PlanEnv) : Except HTTPException Unit :=
  match env.improvementPlansRefusal with
  | none => .ok ()
  | some detail => .error ⟨403, detail, none⟩

/-! ## Eligible evaluations -/

/-- The cap that the query compares with: the one of the record's scheme, else the constant. -/
def listedMaxPct (db : Database) (r : EvaluationRecord) : Rat :=
  ((r.scoringSchemeId.bind db.scoringSchemes.get?).map ScoringScheme.improvementPlanMaxPct).getD 75

def hasPlan (p : PlanDb) (recordId : Nat) : Bool := p.plans.rows.any fun plan => plan.evaluationRecordId = recordId

def isEligible (p : PlanDb) (r : EvaluationRecord) : Bool :=
  r.status = .finalized && r.finalWeightedPct.any (fun pct => pct < listedMaxPct p.db r) && !hasPlan p r.id

/-- The newest first, and before them those without a time. -/
def finalizedLater (a b : EvaluationRecord) : Bool :=
  match a.finalizedAt, b.finalizedAt with
  | none, _ => true
  | some _, none => false
  | some atA, some atB => atB ≤ atA

structure EligibleEvaluation where
  evaluationRecordId : Nat
  evaluationCode : String
  personnelId : Nat
  personnelFullName : String
  finalWeightedPct : Option Rat
  finalizedAt : Option Nat
  deriving DecidableEq

structure EligibleEvaluationPage where
  total : Nat
  items : List EligibleEvaluation

def eligibleEvaluation (db : Database) (r : EvaluationRecord) : EligibleEvaluation where
  evaluationRecordId := r.id
  evaluationCode := r.evaluationCode
  personnelId := r.subjectPersonnelId
  personnelFullName := db.subjectFullName r
  finalWeightedPct := r.finalWeightedPct
  finalizedAt := r.finalizedAt

def eligible (p : PlanDb) : List EvaluationRecord :=
  (p.db.evaluationRecords.rows.filter (isEligible p)).insertionSort fun a b => finalizedLater a b

def pageErrors (limit offset : Int) : List String :=
  rangeError "limit" limit (1, "1") (200, "200") ++ if offset < 0 then boundError "offset" "0" else []

def listEligibleEvaluations (p : PlanDb) (user : CurrentUser) (limit offset : Int) :
    Except HTTPException EligibleEvaluationPage := do
  requireRoles user [.hr]
  ensure (pageErrors limit offset = []) (unprocessable (pageErrors limit offset))
  pure
    { total := (eligible p).length
      items := (((eligible p).drop offset.toNat).take limit.toNat).map (eligibleEvaluation p.db) }

/-! ## Plans -/

def planEvent (env : Env) (user : CurrentUser) (eventType : String) (recordId : Nat) : AuditLog where
  actorUserId := some user.id
  eventType := eventType
  evaluationRecordId := some recordId
  createdAt := env.now

/-- The owner is told, if there is one. -/
def tellOwner (env : Env) (plan : ImprovementPlan) (personName : String) : List Notification :=
  NexaHR.notify env plan.ownerUserId.toList "improvement_plan_assigned"
    ("برنامه بهبود «" ++ plan.title ++ "» برای " ++ personName ++ " به شما به‌عنوان مسئول پیگیری سپرده شد")
    (some plan.evaluationRecordId) (some ("/improvement-plans/" ++ toString plan.id))

def newPlan (r : EvaluationRecord) (user : CurrentUser) (payload : ImprovementPlanCreate) (id : Nat) :
    ImprovementPlan where
  id := id
  evaluationRecordId := r.id
  personnelId := r.subjectPersonnelId
  title := stripWhitespace payload.title
  ownerUserId := payload.ownerUserId
  status := .open
  reviewDate := payload.reviewDate
  summary := payload.summary.map stripWhitespace
  createdByUserId := some user.id

theorem newPlan_id (r : EvaluationRecord) (user : CurrentUser) (payload : ImprovementPlanCreate) (id : Nat) :
    HasId.id (newPlan r user payload id) = id := rfl

def newGoal (planId displayOrder : Nat) (description : String) (id : Nat) : ImprovementPlanGoal where
  id := id
  planId := planId
  description := description
  displayOrder := displayOrder

theorem newGoal_id (planId displayOrder : Nat) (description : String) (id : Nat) :
    HasId.id (newGoal planId displayOrder description id) = id := rfl

def insertGoal (planId : Nat) (goals : Table ImprovementPlanGoal) (goal : String × Nat) :
    Table ImprovementPlanGoal :=
  goals.insert (newGoal planId goal.2 goal.1) (newGoal_id planId goal.2 goal.1)

def insertPlan (p : PlanDb) (r : EvaluationRecord) (user : CurrentUser) (payload : ImprovementPlanCreate) : PlanDb :=
  { p with
    plans := p.plans.insert (newPlan r user payload) (newPlan_id r user payload)
    goals := payload.goalTexts.foldl (insertGoal (p.plans.seq + 1)) p.goals }

/-- Two plans for one record violate a constraint, a goal that is too long does not fit its column. -/
def createPlan (p : PlanDb) (env : PlanEnv) (user : CurrentUser) (payload : ImprovementPlanCreate) :
    Except HTTPException PlanDb := do
  requireRoles user [.hr]
  ensure (payload.errors = []) (unprocessable payload.errors)
  ensurePlansEnabled env
  let r ← require (p.db.evaluationRecords.get? payload.evaluationRecordId) ⟨404, "ارزیابی یافت نشد", none⟩
  ensureHrMayHandle r user
  ensure (r.status = .finalized) ⟨400, "برنامه بهبود فقط برای ارزیابی نهایی‌شده قابل تعریف است", none⟩
  let maxPct := (rulesForRecord p.db r).improvementPlanMaxPct
  ensure (r.finalWeightedPct.any (fun pct => pct < maxPct) = true)
    ⟨400, "برنامهٔ بهبود برای امتیازهای زیر " ++ formatG maxPct ++
      "٪ معنا دارد؛ امتیاز این پرونده بالاتر است", none⟩
  ensureOwnerIsValid p.db payload.ownerUserId
  ensure (hasPlan p r.id = false) ⟨409, "برای این ارزیابی قبلاً یک برنامه بهبود ثبت شده است", none⟩
  ensure (∀ goal ∈ payload.goalTexts, goal.1.length ≤ planGoalMax) internalServerError
  pure
    (((insertPlan p r user payload).log [planEvent env.toEnv user "improvement_plan_created" r.id]).notify
      (tellOwner env.toEnv (newPlan r user payload (p.plans.seq + 1)) (p.db.subjectFullName r)))

def ensureFollowUpFits (db : Database) (plan : ImprovementPlan) (followUpEvaluationId : Option (Option Nat)) :
    Except HTTPException Unit :=
  match followUpEvaluationId.join with
  | none => .ok ()
  | some recordId =>
    ensure ((db.evaluationRecords.get? recordId).any (fun r => r.subjectPersonnelId = plan.personnelId) = true)
      ⟨400, "ارزیابی پیگیری باید متعلق به همان پرسنل باشد", none⟩

/-- The one request to a plan that does not ask whether it is open. -/
def updatePlan (p : PlanDb) (env : PlanEnv) (user : CurrentUser) (planId : Nat) (payload : ImprovementPlanUpdate) :
    Except HTTPException PlanDb := do
  requireRoles user [.hr]
  ensure (payload.errors = []) (unprocessable payload.errors)
  let plan ← getPlanOr404 p planId
  ensureOwnerIsValid p.db payload.ownerUserId.join
  ensureFollowUpFits p.db plan payload.followUpEvaluationId
  ensure (payload.setsNull = false) internalServerError
  let changed := plan.updated payload
  let told :=
    if changed.ownerUserId ≠ plan.ownerUserId then
      tellOwner env.toEnv changed (((p.db.personnel.get? plan.personnelId).map Personnel.fullName).getD "")
    else []
  pure
    ((({ p with plans := p.plans.put changed } : PlanDb).log
      [planEvent env.toEnv user "improvement_plan_updated" plan.evaluationRecordId]).notify told)

/-- The two ends of a plan. -/
def closePlan (status : ImprovementPlanStatus) (eventType : String) (p : PlanDb) (env : PlanEnv)
    (user : CurrentUser) (planId : Nat) : Except HTTPException PlanDb := do
  requireRoles user [.hr]
  let plan ← getPlanOr404 p planId
  ensure (plan.status = .open) ⟨400, "این برنامه دیگر باز نیست", none⟩
  pure
    (({ p with plans := p.plans.put { plan with status := status, completedAt := some env.now } } : PlanDb).log
      [planEvent env.toEnv user eventType plan.evaluationRecordId])

def completePlan : PlanDb → PlanEnv → CurrentUser → Nat → Except HTTPException PlanDb :=
  closePlan .completed "improvement_plan_completed"

def cancelPlan : PlanDb → PlanEnv → CurrentUser → Nat → Except HTTPException PlanDb :=
  closePlan .cancelled "improvement_plan_cancelled"

/-! ## Goals -/

def nextOrder (p : PlanDb) (planId : Nat) : Nat :=
  ((p.goalsOf planId).map fun goal => goal.displayOrder + 1).foldl max 0

def addGoal (p : PlanDb) (env : PlanEnv) (user : CurrentUser) (planId : Nat) (description : String) :
    Except HTTPException PlanDb := do
  requireRoles user [.hr]
  ensure (goalErrors description = []) (unprocessable (goalErrors description))
  let plan ← getPlanOr404 p planId
  ensurePlanOpen plan
  pure
    (({ p with goals := insertGoal plan.id p.goals (stripWhitespace description, nextOrder p plan.id) } : PlanDb).log
      [planEvent env.toEnv user "improvement_goal_added" plan.evaluationRecordId])

def goalNotFound : HTTPException := ⟨404, "هدف یافت نشد", none⟩

/-- The goal of the path, which must be one of the plan of the path. -/
def getGoalOr404 (p : PlanDb) (planId goalId : Nat) : Except HTTPException ImprovementPlanGoal := do
  let goal ← require (p.goals.get? goalId) goalNotFound
  ensure (goal.planId = planId) goalNotFound
  pure goal

def updateGoal (p : PlanDb) (env : PlanEnv) (user : CurrentUser) (planId goalId : Nat) (payload : GoalUpdate) :
    Except HTTPException PlanDb := do
  requireRoles user planRoles
  ensure (payload.errors = []) (unprocessable payload.errors)
  let goal ← getGoalOr404 p planId goalId
  let plan ← getPlanOr404 p planId
  ensureCanViewPlan plan user
  ensurePlanOpen plan
  ensure (user.role = .hr ∨ payload.description.isSome = false)
    ⟨403, "مسئول پیگیری فقط می‌تواند هدف را انجام‌شده/انجام‌نشده علامت بزند", none⟩
  ensure (payload.setsNull = false) internalServerError
  pure
    (({ p with goals := p.goals.put (goal.updated payload) } : PlanDb).log
      [planEvent env.toEnv user "improvement_goal_updated" plan.evaluationRecordId])

def deleteGoal (p : PlanDb) (env : PlanEnv) (user : CurrentUser) (planId goalId : Nat) :
    Except HTTPException PlanDb := do
  requireRoles user [.hr]
  let goal ← getGoalOr404 p planId goalId
  let plan ← getPlanOr404 p planId
  ensurePlanOpen plan
  pure
    (({ p with goals := p.goals.filter fun other => other.id ≠ goal.id } : PlanDb).log
      [planEvent env.toEnv user "improvement_goal_deleted" plan.evaluationRecordId])

/-! ## Requests -/

/-- A request to the plans, or one that does not concern them. -/
inductive PlanCall
  | createPlan (payload : ImprovementPlanCreate)
  | updatePlan (planId : Nat) (payload : ImprovementPlanUpdate)
  | completePlan (planId : Nat)
  | cancelPlan (planId : Nat)
  | addGoal (planId : Nat) (description : String)
  | updateGoal (planId goalId : Nat) (payload : GoalUpdate)
  | deleteGoal (planId goalId : Nat)
  | elsewhere (operation : Operation)

structure PlanRequest where
  userId : Nat
  env : PlanEnv
  call : PlanCall

def PlanCall.run (p : PlanDb) (env : PlanEnv) (user : CurrentUser) : PlanCall → Except HTTPException PlanDb
  | createPlan payload => NexaHR.createPlan p env user payload
  | updatePlan planId payload => NexaHR.updatePlan p env user planId payload
  | completePlan planId => NexaHR.completePlan p env user planId
  | cancelPlan planId => NexaHR.cancelPlan p env user planId
  | addGoal planId description => NexaHR.addGoal p env user planId description
  | updateGoal planId goalId payload => NexaHR.updateGoal p env user planId goalId payload
  | deleteGoal planId goalId => NexaHR.deleteGoal p env user planId goalId
  | elsewhere operation => do
    let db ← operation.run p.db env.toEnv user
    pure { p with db := db }

def planStep (p : PlanDb) (req : PlanRequest) : Except HTTPException PlanDb := do
  let user ← getCurrentUser p.db req.userId
  req.call.run p req.env user

/-- The request was answered and led to `p'`. -/
def PlanSteps (p : PlanDb) (req : PlanRequest) (p' : PlanDb) : Prop := planStep p req = .ok p'

end NexaHR
