import NexaHR.Foundations.Table
import NexaHR.Foundations.Checks
import NexaHR.Models.Chain
import Mathlib.Data.Rat.Defs

/-! # The tables

The rows of the tables that the modelled services read and write, and the database that holds
them. A column that no modelled function reads is left out. The score rows and the
self-assessment rows of a record hang on the record itself, since every query for them is by
record; comments keep their own table, because a reply names its parent by key.

* `EvaluationRecord`: one evaluation, with its chain, its stamped scheme and framework, its
  scores, its result and its final document.
* `Database`: the tables, the audit log and the notifications.
* `HTTPException`: how an endpoint refuses.
* `Env`: what an endpoint reads that is not in the tables: the clock, fresh random text, the
  Jalali rendering of a date, the caller's capabilities, the module switches and two settings.
-/

namespace NexaHR

open Foundations

set_option autoImplicit false

/-! ## People -/

structure User where
  id : Nat
  username : String
  fullName : Option String
  role : UserRole
  isActive : Bool
  personnelId : Option Nat
  deriving DecidableEq

structure Personnel where
  id : Nat
  personnelCode : String
  fullName : String
  jobTitle : String
  isManager : Bool
  orgUnit : String
  contractStartDate : Nat
  contractEndDate : Nat
  status : PersonnelStatus
  separationDate : Option Nat
  separationReason : Option SeparationReason
  deriving DecidableEq

structure OrgUnit where
  id : Nat
  site : Option String
  name : String
  isActive : Bool
  isHrUnit : Bool
  deriving DecidableEq

structure EvaluationAccess where
  id : Nat
  personnelId : Nat
  chain : Chain
  updatedByUserId : Option Nat
  deriving DecidableEq

structure EvaluationPeriod where
  id : Nat
  name : String
  startsOn : Nat
  endsOn : Nat
  status : PeriodStatus
  deriving DecidableEq

/-! ## The form and its rules -/

structure Indicator where
  id : Nat
  «section» : IndicatorSection
  category : String
  description : String
  displayOrder : Nat
  isActive : Bool
  deriving DecidableEq

/-- The membership of the form at one moment. -/
structure IndicatorFramework where
  id : Nat
  version : Nat
  memberIds : List Nat
  changeKind : String
  changeNote : Option String
  createdByUserId : Option Nat
  deriving DecidableEq

/-- A version of the scoring rules. The table of thresholds is never empty. -/
structure ScoringScheme where
  id : Nat
  version : Nat
  name : String
  status : SchemeStatus
  generalSectionWeight : Rat
  specializedSectionWeight : Rat
  evidenceRequiredScores : List Nat
  evidenceMinWords : Nat
  evidenceMaxWords : Nat
  bonusMaxPoints : Rat
  improvementPlanMaxPct : Rat
  thresholds : List (Rat × String)
  thresholds_ne : thresholds ≠ []
  indicatorWeights : List (Nat × Rat)
  createdByUserId : Option Nat
  activatedByUserId : Option Nat
  deriving DecidableEq

/-! ## Evaluations -/

structure EvaluationScore where
  indicatorId : Nat
  score : Nat
  evidenceText : Option String
  deriving DecidableEq

structure SelfAssessmentScore where
  indicatorId : Nat
  score : Nat
  note : Option String
  deriving DecidableEq

structure EvaluationComment where
  id : Nat
  evaluationRecordId : Nat
  commenterUserId : Nat
  parentCommentId : Option Nat
  stage : CommentStage
  commentText : String
  deriving DecidableEq

/-- A row of the signature block: the seats that one user fills, in chain order. -/
structure Signatory where
  seats : List SeatField
  label : String
  userId : Option Nat
  deriving DecidableEq

structure SnapshotPersonnel where
  fullName : String
  personnelCode : String
  jobTitle : String
  orgUnit : String
  deriving DecidableEq

structure SnapshotEvaluator where
  username : Option String
  displayName : Option String
  roleLabel : String
  deriving DecidableEq

structure SnapshotScore where
  indicatorId : Nat
  category : String
  description : String
  «section» : String
  score : Nat
  evidenceText : Option String
  deriving DecidableEq

structure SnapshotComment where
  stage : CommentStage
  commenterUserId : Nat
  commentText : String
  deriving DecidableEq

structure SelfAssessmentRow where
  indicatorId : Nat
  category : String
  description : String
  selfScore : Nat
  evaluatorScore : Option Nat
  gap : Option Int
  note : Option String
  deriving DecidableEq

structure SelfAssessmentBlock where
  submittedAt : Nat
  note : Option String
  rows : List SelfAssessmentRow
  deriving DecidableEq

/-- The final document. -/
structure FinalSnapshot where
  snapshotVersion : Nat
  personnel : SnapshotPersonnel
  evaluator : SnapshotEvaluator
  singleDecider : Bool
  signatories : List Signatory
  selfAssessment : Option SelfAssessmentBlock
  evaluationStartedAt : Nat
  evaluationCode : String
  generalScorePct : Option Rat
  specializedScorePct : Option Rat
  finalWeightedPct : Option Rat
  baseWeightedPct : Option Rat
  bonusPoints : Option Rat
  bonusReason : Option String
  recommendation : Option String
  evaluatorComment : Option String
  scores : List SnapshotScore
  comments : List SnapshotComment
  finalizedAt : Option Nat
  deriving DecidableEq

structure EvaluationRecord where
  id : Nat
  evaluationCode : String
  verifyToken : Option String := none
  subjectPersonnelId : Nat
  chain : Chain
  hrUserId : Option Nat := none
  hrReviewSkipped : Bool
  periodId : Option Nat
  scoringSchemeId : Option Nat
  indicatorFrameworkId : Option Nat
  status : EvaluationStatus
  baseWeightedPct : Option Rat := none
  generalScorePct : Option Rat := none
  specializedScorePct : Option Rat := none
  finalWeightedPct : Option Rat := none
  recommendation : Option String := none
  bonusPoints : Option Rat := none
  bonusReason : Option String := none
  evaluatorComment : Option String := none
  finalSnapshot : Option FinalSnapshot := none
  createdAt : Nat
  stageEnteredAt : Nat
  finalizedAt : Option Nat := none
  acknowledgedAt : Option Nat := none
  acknowledgedByUserId : Option Nat := none
  selfAssessmentSubmittedAt : Option Nat := none
  selfAssessmentNote : Option String := none
  selfAssessmentInvitedAt : Option Nat := none
  selfAssessmentInvitedByUserId : Option Nat := none
  submissionExtendedUntil : Option Nat := none
  submissionExtendedAt : Option Nat := none
  submissionExtendedByUserId : Option Nat := none
  submissionExtensionReason : Option String := none
  objectionAt : Option Nat := none
  objectionReason : Option String := none
  objectionResolvedAt : Option Nat := none
  objectionResolution : Option String := none
  objectionResolvedByUserId : Option Nat := none
  scores : List EvaluationScore := []
  selfAssessmentScores : List SelfAssessmentScore := []
  deriving DecidableEq

namespace EvaluationRecord

/-- The user that a column of the record names. -/
def seat (r : EvaluationRecord) : SeatField → Option Nat
  | .chain s => r.chain.seat s
  | .hr => r.hrUserId

@[simp] theorem seat_chain (r : EvaluationRecord) (s : ChainSeat) :
    r.seat (.chain s) = r.chain.seat s := rfl

@[simp] theorem seat_hr (r : EvaluationRecord) : r.seat .hr = r.hrUserId := rfl

end EvaluationRecord

/-! ## Logs -/

structure AuditLog where
  actorUserId : Option Nat
  eventType : String
  evaluationRecordId : Option Nat := none
  oldStatus : Option EvaluationStatus := none
  newStatus : Option EvaluationStatus := none
  createdAt : Nat
  deriving DecidableEq

structure Notification where
  userId : Nat
  type : String
  message : String
  link : Option String
  evaluationRecordId : Option Nat
  dedupKey : Option String := none
  createdAt : Nat
  deriving DecidableEq

/-! ## The database -/

instance : HasId User := ⟨User.id⟩
instance : HasId Personnel := ⟨Personnel.id⟩
instance : HasId OrgUnit := ⟨OrgUnit.id⟩
instance : HasId EvaluationAccess := ⟨EvaluationAccess.id⟩
instance : HasId EvaluationPeriod := ⟨EvaluationPeriod.id⟩
instance : HasId Indicator := ⟨Indicator.id⟩
instance : HasId IndicatorFramework := ⟨IndicatorFramework.id⟩
instance : HasId ScoringScheme := ⟨ScoringScheme.id⟩
instance : HasId EvaluationComment := ⟨EvaluationComment.id⟩
instance : HasId EvaluationRecord := ⟨EvaluationRecord.id⟩

structure Database where
  users : Table User
  personnel : Table Personnel
  orgUnits : Table OrgUnit
  evaluationAccess : Table EvaluationAccess
  evaluationPeriods : Table EvaluationPeriod
  indicators : Table Indicator
  indicatorFrameworks : Table IndicatorFramework
  scoringSchemes : Table ScoringScheme
  evaluationRecords : Table EvaluationRecord
  evaluationComments : Table EvaluationComment
  evaluationCodeSeq : Nat
  auditLog : List AuditLog
  notifications : List Notification

namespace Database

/-- A name that is stored empty is no name. -/
def givenName (name : Option String) : Option String := name.filter fun text => text ≠ ""

/-- The name shown for an account: the linked person's, else the account's own, else its login. -/
def displayName (db : Database) (u : User) : String :=
  (givenName ((u.personnelId.bind db.personnel.get?).map Personnel.fullName)).getD
    ((givenName u.fullName).getD u.username)

/-- The name of a record's subject. -/
def subjectFullName (db : Database) (r : EvaluationRecord) : String :=
  ((db.personnel.get? r.subjectPersonnelId).map Personnel.fullName).getD ""

end Database

/-! ## Requests -/

/-- How an endpoint refuses. -/
structure HTTPException where
  statusCode : Nat
  detail : String
  evaluationId : Option Nat := none
  deriving DecidableEq, Repr

/-- The account behind a request. -/
structure CurrentUser where
  id : Nat
  username : String
  role : UserRole
  personnelId : Option Nat
  deriving DecidableEq

/-- What a request reads that is not in the tables. Times count seconds, dates count days. -/
structure Env where
  now : Nat
  today : Nat
  freshToken : String
  faDate : Nat → String
  fingerprint : List String → String
  capabilities : List Capability
  moduleRefusal : Module → Option String
  objectionWindowDays : Nat
  notificationDedupDays : Nat

def Env.moduleEnabled (env : Env) (m : Module) : Bool := (env.moduleRefusal m).isNone

/-- The account is linked to the person that the record is about. -/
def CurrentUser.isSubjectOf (u : CurrentUser) (r : EvaluationRecord) : Prop :=
  u.personnelId = some r.subjectPersonnelId

instance (u : CurrentUser) (r : EvaluationRecord) : Decidable (u.isSubjectOf r) :=
  inferInstanceAs (Decidable (u.personnelId = some r.subjectPersonnelId))

end NexaHR
