import NexaHR.Foundations.Runs
import NexaHR.Routers.Form
import NexaHR.Routers.Me
import NexaHR.Routers.Opening

/-! # The system

All endpoints together, as one step function on the database. The assistant calls the endpoints'
own functions, so its requests are requests of this system.

* `RecordOperation`, `Operation`: the requests.
* `step`: what a request does; a refusal leaves the database as it is.
* `Initial`, `SystemRun`: the databases that the system starts from and its runs from them.
* `performedOn`: the transition that a request takes on a record.
-/

namespace NexaHR

open Foundations

set_option autoImplicit false

/-! ## Requests about one record -/

inductive RecordOperation
  | upsertScores (scores : List EvaluationScore)
  | setEvaluatorComment (evaluatorComment : String)
  | setSpecialScore (bonusPoints : Rat) (bonusReason : Option String)
  | submitEvaluation
  | hrApprove
  | deputyApprove
  | ceoFinalize
  | returnEvaluation (reason : String)
  | cancelEvaluation (reason : String)
  | extendSubmissionWindow (untilDate : Nat) (reason : String)
  | hrClaim
  | hrHandover (newHrUserId : Nat) (reason : String)
  | resolveObjection (resolution : String)
  | reassignStageOwner (stageField : ChainSeat) (newUserId : Nat) (reason : String)
  | addComment (commentText : String)
  | addReply (parentCommentId : Nat) (commentText : String)
  | submitSelfAssessment (scores : List SelfAssessmentScore) (note : Option String)
  | inviteSelfAssessment
  | fileObjection (reason : String)
  | acknowledgeEvaluation

namespace RecordOperation

/-- What the endpoint asks before it reads the record. -/
def guard (env : Env) (user : CurrentUser) : RecordOperation → Except HTTPException Unit
  | submitEvaluation => requireChainStage user .unitSupervisor
  | hrApprove | hrClaim | hrHandover _ _ => requireRoles user [.hr]
  | deputyApprove => requireChainStage user .deputy
  | ceoFinalize => requireChainStage user .ceo
  | returnEvaluation _ | cancelEvaluation _ | extendSubmissionWindow _ _
  | reassignStageOwner _ _ _ => requireRoles user [.hr, .deputy, .ceo]
  | resolveObjection _ => do
    requireRoles user [.hr, .deputy, .ceo]
    ensureModuleEnabled env .objections
  | submitSelfAssessment _ _ => do
    requireOwnPersonnel user
    ensureModuleEnabled env .selfAssessment
  | fileObjection _ => do
    requireOwnPersonnel user
    ensureModuleEnabled env .objections
  | acknowledgeEvaluation => do
    requireOwnPersonnel user
    ensureModuleEnabled env .employeeResultAcknowledgement
  | inviteSelfAssessment => do
    requireRoleOrCapability user env .hr .managePersonnel
    ensureModuleEnabled env .selfAssessment
  | upsertScores _ | setEvaluatorComment _ | setSpecialScore _ _ | addComment _ | addReply _ _ =>
    .ok ()

def scoreErrors (score : Nat) : List String := rangeError "امتیاز" score (1, "1") (5, "5")

/-- What the schema of the body refuses. -/
def payloadErrors : RecordOperation → List String
  | upsertScores scores =>
    scores.flatMap fun s =>
      scoreErrors s.score ++
        (if 2000 < (s.evidenceText.getD "").length then lengthError "شواهد" (s.evidenceText.getD "") 2000
          else [])
  | setSpecialScore bonusPoints _ => rangeError "bonus_points" bonusPoints (0, "0.0") (100, "100.0")
  | returnEvaluation reason | cancelEvaluation reason | extendSubmissionWindow _ reason
  | hrHandover _ reason | reassignStageOwner _ _ reason => lengthError "دلیل" reason 1000
  | resolveObjection resolution => lengthError "پاسخ" resolution 2000
  | fileObjection reason => lengthError "دلیل" reason 2000
  | addComment commentText | addReply _ commentText => lengthError "متن دیدگاه" commentText 4000
  | submitSelfAssessment scores _ => scores.flatMap fun s => scoreErrors s.score
  | _ => []

/-- The endpoint on the record. -/
def run (db : Database) (env : Env) (user : CurrentUser) (r : EvaluationRecord) :
    RecordOperation → Except HTTPException Work
  | upsertScores scores => NexaHR.upsertScores db env user r scores
  | setEvaluatorComment evaluatorComment => NexaHR.setEvaluatorComment user r evaluatorComment
  | setSpecialScore bonusPoints bonusReason =>
    NexaHR.setSpecialScore db env user r bonusPoints bonusReason
  | submitEvaluation => NexaHR.submitEvaluation db env user r
  | hrApprove => NexaHR.hrApprove db env user r
  | deputyApprove => NexaHR.deputyApprove db env user r
  | ceoFinalize => NexaHR.ceoFinalize db env user r
  | returnEvaluation reason => NexaHR.returnEvaluation db env user r reason
  | cancelEvaluation reason => NexaHR.cancelEvaluation db env user r reason
  | extendSubmissionWindow untilDate reason =>
    NexaHR.extendSubmissionWindow db env user r untilDate reason
  | hrClaim => NexaHR.hrClaim db env user r
  | hrHandover newHrUserId reason => NexaHR.hrHandover db env user r newHrUserId reason
  | resolveObjection resolution => NexaHR.resolveObjection db env user r resolution
  | reassignStageOwner stageField newUserId reason =>
    NexaHR.reassignStageOwner db env user r stageField newUserId reason
  | addComment commentText => NexaHR.addComment env user r commentText
  | addReply parentCommentId commentText => NexaHR.addReply db env user r parentCommentId commentText
  | submitSelfAssessment scores note => NexaHR.submitSelfAssessment db env user r scores note
  | inviteSelfAssessment => NexaHR.inviteSelfAssessment db env user r
  | fileObjection reason => NexaHR.fileObjection db env user r reason
  | acknowledgeEvaluation => NexaHR.acknowledgeEvaluation db env user r

/-- The transition that the endpoint asks for on the record. -/
def action (user : CurrentUser) (r : EvaluationRecord) : RecordOperation → Option Action
  | submitEvaluation => some (submitAction r)
  | hrApprove => some (hrApproveAction r)
  | deputyApprove => some .deputyApprove
  | ceoFinalize => some .ceoFinalize
  | returnEvaluation _ => (returnActionFor r user).map Prod.fst
  | cancelEvaluation _ => some (cancelAction user)
  | _ => none

end RecordOperation

/-! ## All requests -/

inductive Operation
  | onRecord (recordId : Nat) (op : RecordOperation)
  | createEvaluation (personnelId : Nat)
  | runBulkCreate (cohort : CohortFilter)
  | createUser (payload : UserCreate)
  | updateUser (userId : Nat) (payload : UserUpdate)
  | deleteUser (userId : Nat)
  | upsertAccess (personnelId : Nat) (payload : EvaluationAccessUpsert)
  | createPersonnel (payload : PersonnelFields) (username : Option String)
  | importPersonnel (rows : List ImportRow)
  | updatePersonnel (personnelId : Nat) (payload : PersonnelUpdate)
  | createOrgUnit (site : Option String) (name : String)
  | updateOrgUnit (unitId : Nat) (payload : OrgUnitUpdate)
  | deleteOrgUnit (unitId : Nat)
  | createPeriod (name : String) (startsOn endsOn : Nat)
  | updatePeriod (periodId : Nat) (name : Option String) (startsOn endsOn : Option Nat)
  | closePeriod (periodId : Nat) (force : Bool)
  | deletePeriod (periodId : Nat)
  | createIndicator («section» : IndicatorSection) (category description : String)
  | updateIndicator (indicatorId : Nat) (payload : IndicatorUpdate)
  | replaceIndicator (indicatorId : Nat) (category description reason : String)
  | deleteIndicator (indicatorId : Nat)
  | reorderIndicators («section» : IndicatorSection) (orderedIds : List Nat)
  | createScheme (payload : SchemeInput)
  | activateScheme (schemeId : Nat)
  | deleteDraft (schemeId : Nat)

/-- The operation changes which indicators the form asks, and so publishes a new version of it. -/
def Operation.changesMembership (db : Database) : Operation → Bool
  | createIndicator _ _ _ | replaceIndicator _ _ _ _ | deleteIndicator _ => true
  | updateIndicator indicatorId payload =>
    (db.indicators.get? indicatorId).any fun i => (i.updated payload).isActive ≠ i.isActive
  | _ => false

structure Request where
  userId : Nat
  env : Env
  operation : Operation

/-- An endpoint of one record, from its guard to the commit. -/
def onRecord (db : Database) (env : Env) (user : CurrentUser) (recordId : Nat)
    (op : RecordOperation) : Except HTTPException Database := do
  op.guard env user
  ensure (op.payloadErrors = []) ⟨422, persianValidationMessage op.payloadErrors, none⟩
  let r ← require (db.evaluationRecords.get? recordId) evaluationNotFound
  let w ← op.run db env user r
  pure (w.commit db)

def Operation.run (db : Database) (env : Env) (user : CurrentUser) :
    Operation → Except HTTPException Database
  | onRecord recordId op => NexaHR.onRecord db env user recordId op
  | createEvaluation personnelId => NexaHR.createEvaluation db env user personnelId
  | runBulkCreate cohort => NexaHR.runBulkCreate db env user cohort
  | createUser payload => NexaHR.createUser db env user payload
  | updateUser userId payload => NexaHR.updateUser db env user userId payload
  | deleteUser userId => NexaHR.deleteUser db env user userId
  | upsertAccess personnelId payload => NexaHR.upsertAccess db env user personnelId payload
  | createPersonnel payload username => NexaHR.createPersonnel db env user payload username
  | importPersonnel rows => NexaHR.importPersonnel db env user rows
  | updatePersonnel personnelId payload => NexaHR.updatePersonnel db env user personnelId payload
  | createOrgUnit site name => NexaHR.createOrgUnit db env user site name
  | updateOrgUnit unitId payload => NexaHR.updateOrgUnit db env user unitId payload
  | deleteOrgUnit unitId => NexaHR.deleteOrgUnit db env user unitId
  | createPeriod name startsOn endsOn => NexaHR.createPeriod db env user name startsOn endsOn
  | updatePeriod periodId name startsOn endsOn =>
    NexaHR.updatePeriod db env user periodId name startsOn endsOn
  | closePeriod periodId force => NexaHR.closePeriod db env user periodId force
  | deletePeriod periodId => NexaHR.deletePeriod db env user periodId
  | createIndicator «section» category description =>
    NexaHR.createIndicator db env user «section» category description
  | updateIndicator indicatorId payload => NexaHR.updateIndicator db env user indicatorId payload
  | replaceIndicator indicatorId category description reason =>
    NexaHR.replaceIndicator db env user indicatorId category description reason
  | deleteIndicator indicatorId => NexaHR.deleteIndicator db env user indicatorId
  | reorderIndicators «section» orderedIds => NexaHR.reorderIndicators db env user «section» orderedIds
  | createScheme payload => NexaHR.createScheme db env user payload
  | activateScheme schemeId => NexaHR.activateScheme db env user schemeId
  | deleteDraft schemeId => NexaHR.deleteDraft db env user schemeId

/-- One request. -/
def step (db : Database) (req : Request) : Except HTTPException Database := do
  let user ← getCurrentUser db req.userId
  req.operation.run db req.env user

/-- The request was answered and led to `db'`. -/
def Steps (db : Database) (req : Request) (db' : Database) : Prop := step db req = .ok db'

/-- The database after a request: the one that it was answered with, or the one before. -/
def settled (db : Database) (req : Request) : Database :=
  match step db req with
  | .ok db' => db'
  | .error _ => db

theorem steps_settled {db : Database} {req : Request} (h : (step db req).isOk = true) :
    Steps db req (settled db req) := by
  unfold Steps settled
  cases hstep : step db req with
  | ok db' => rfl
  | error e =>
    rw [hstep] at h
    cases h

/-! ## Runs -/

/-- A database before the first evaluation, as the migrations and the administrators leave it: no
records, access rows that name nobody as his own evaluator, and one active version of the rules. -/
structure Initial (db : Database) : Prop where
  no_records : ∀ r, r ∉ db.evaluationRecords
  access_not_self : ∀ access ∈ db.evaluationAccess, ∀ u ∈ db.users,
    u.id ∈ access.chain.occupants → u.personnelId ≠ some access.personnelId
  users_person : ∀ u ∈ db.users, ∀ personnelId, u.personnelId = some personnelId →
    (db.personnel.get? personnelId).isSome = true
  access_person : ∀ access ∈ db.evaluationAccess,
    (db.personnel.get? access.personnelId).isSome = true
  access_users : ∀ access ∈ db.evaluationAccess, ∀ k ∈ access.chain.occupants,
    (db.users.get? k).isSome = true
  scheme_active : ∃ scheme ∈ db.scoringSchemes, scheme.status = .active

/-- A run of the system, with its history. -/
abbrev SystemRun (tr : List (Taken Database Request)) (db : Database) : Prop :=
  Run Initial Steps tr db

/-- The account behind a step. -/
def userOf (db : Database) (req : Request) : Option CurrentUser :=
  (db.users.get? req.userId).map User.toCurrent

/-- The person that a request takes out of the organisation. -/
def departing (db : Database) (req : Request) : Option Nat :=
  match req.operation with
  | .updatePersonnel personnelId payload =>
    ((db.personnel.get? personnelId).filter fun person => person.isLeaving payload).map Personnel.id
  | _ => none

/-- The transition that a request takes on a record: the endpoint's own, or the cancellation of the
open record of a person who leaves. -/
def performedOn (db : Database) (req : Request) (recordId : Nat) : Option Action :=
  match req.operation with
  | .onRecord k op =>
    if k = recordId then
      match userOf db req, db.evaluationRecords.get? recordId with
      | some user, some r => op.action user r
      | _, _ => none
    else none
  | _ =>
    if ((departing db req).bind db.openRecordOf).map EvaluationRecord.id = some recordId then
      some .cancelOnSeparation
    else none

end NexaHR
