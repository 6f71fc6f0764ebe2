import NexaHR.Pages.EvaluationActions
import NexaHR.Pages.ScoreForm
import NexaHR.Routers.Me
import NexaHR.Routers.Views

/-! # Reading records

The list, the page and the document of a record, from `api/routers/evaluations.py`. The bounds that the
schema of a request sets on its numbers are left out.

* `Backend`: what the endpoints ask of the database server, the clock and the renderer.
* `listEvaluations`: the records of the user's role that pass the filters, a page of them.
* `getEvaluation`: one record with its scores and comments.
* `evaluationSummaryPdf`: the final document, for HR and for the subject.
-/

namespace NexaHR

open Foundations

set_option autoImplicit false

/-! ## Outside the tables -/

/-- A document is known by the text that stands for its bytes. -/
structure Backend where
  ilike : String → String → Bool
  localDayStart : Nat → Nat
  weasyprintAvailable : Bool
  renderEvaluationSummaryPdf : FinalSnapshot → Option String → Option String
  verifyUrlFor : String → String
  minCohortSize : Nat

namespace Backend

def localDayEnd (backend : Backend) (day : Nat) : Nat := backend.localDayStart (day + 1)

end Backend

/-! ## What is sent of a record -/

structure EvaluationRead where
  id : Nat
  evaluationCode : String
  subjectPersonnelId : Nat
  subjectFullName : String
  periodId : Option Nat
  unitSupervisorUserId : Option Nat
  deputyUserId : Option Nat
  ceoUserId : Nat
  hrUserId : Option Nat
  hrUsername : Option String
  hrDisplayName : Option String
  status : EvaluationStatus
  generalScorePct : Option Rat
  specializedScorePct : Option Rat
  finalWeightedPct : Option Rat
  recommendation : Option String
  baseWeightedPct : Option Rat
  bonusPoints : Option Rat
  bonusReason : Option String
  evaluatorComment : Option String
  createdAt : Nat
  finalizedAt : Option Nat
  acknowledgedAt : Option Nat
  wasReturned : Bool := false
  objectionAt : Option Nat
  objectionReason : Option String
  objectionResolvedAt : Option Nat
  objectionResolution : Option String
  singleDecider : Bool
  hrReviewSkipped : Bool
  submissionDeadline : Option Nat := none
  submissionDeadlineExtended : Bool := false
  submissionExtensionReason : Option String
  stage : Option EvaluationStage
  deriving DecidableEq

/-- `EvaluationRead.model_validate`. -/
def evaluationRead (db : Database) (r : EvaluationRecord) : EvaluationRead :=
  let hrUser := r.hrUserId.bind db.users.get?
  { id := r.id
    evaluationCode := r.evaluationCode
    subjectPersonnelId := r.subjectPersonnelId
    subjectFullName := db.subjectFullName r
    periodId := r.periodId
    unitSupervisorUserId := r.chain.unitSupervisorUserId
    deputyUserId := r.chain.deputyUserId
    ceoUserId := r.chain.ceoUserId
    hrUserId := r.hrUserId
    hrUsername := hrUser.map User.username
    hrDisplayName := hrUser.map db.displayName
    status := r.status
    generalScorePct := r.generalScorePct
    specializedScorePct := r.specializedScorePct
    finalWeightedPct := r.finalWeightedPct
    recommendation := r.recommendation
    baseWeightedPct := r.baseWeightedPct
    bonusPoints := r.bonusPoints
    bonusReason := r.bonusReason
    evaluatorComment := r.evaluatorComment
    createdAt := r.createdAt
    finalizedAt := r.finalizedAt
    acknowledgedAt := r.acknowledgedAt
    objectionAt := r.objectionAt
    objectionReason := r.objectionReason
    objectionResolvedAt := r.objectionResolvedAt
    objectionResolution := r.objectionResolution
    singleDecider := singleDecider r
    hrReviewSkipped := r.hrReviewSkipped
    submissionExtensionReason := r.submissionExtensionReason
    stage := stageByStatus r.status }

/-- `_was_returned`. -/
def wasReturned (db : Database) (evaluationId : Nat) : Bool :=
  db.auditLog.any fun row =>
    row.eventType = "evaluation_returned" && row.evaluationRecordId = some evaluationId

/-! ## The list -/

structure EvaluationFilters where
  q : Option String := none
  statusFilter : Option EvaluationStatus := none
  orgUnit : Option String := none
  createdFrom : Option Nat := none
  createdTo : Option Nat := none
  minFinalPct : Option Rat := none
  maxFinalPct : Option Rat := none
  subjectPersonnelId : Option Nat := none
  wasReturned : Option Bool := none
  seatUserId : Option Nat := none
  onCeoDesk : Bool := false

namespace EvaluationFilters

/-- The condition on the person, where the query joins the persons. -/
def admitsPerson (filters : EvaluationFilters) (backend : Backend) (db : Database) (r : EvaluationRecord) :
    Bool :=
  let q := filters.q.filter (· ≠ "")
  let orgUnit := filters.orgUnit.filter (· ≠ "")
  if q.isSome || orgUnit.isSome then
    (db.personnel.get? r.subjectPersonnelId).any fun person =>
      q.all (fun text =>
        let pattern := "%" ++ strip text ++ "%"
        backend.ilike r.evaluationCode pattern || backend.ilike person.fullName pattern) &&
      orgUnit.all (person.orgUnit = ·)
  else true

/-- `IS_ON_CEO_DESK`. -/
def isOnCeoDesk (r : EvaluationRecord) : Bool :=
  r.status = .deputyApproved || (r.status = .hrApproved && r.chain.deputyUserId.isNone)

def isSeated (r : EvaluationRecord) (userId : Nat) : Bool :=
  r.chain.unitSupervisorUserId = some userId || r.chain.deputyUserId = some userId ||
    r.chain.ceoUserId = userId || r.hrUserId = some userId

/-- The conditions that `_apply_evaluation_filters` adds. -/
def admits (filters : EvaluationFilters) (backend : Backend) (db : Database) (r : EvaluationRecord) : Bool :=
  filters.admitsPerson backend db r &&
    filters.statusFilter.all (r.status = ·) &&
    filters.createdFrom.all (fun day => backend.localDayStart day ≤ r.createdAt) &&
    filters.createdTo.all (fun day => r.createdAt < backend.localDayEnd day) &&
    filters.minFinalPct.all (fun bound => r.finalWeightedPct.any (bound ≤ ·)) &&
    filters.maxFinalPct.all (fun bound => r.finalWeightedPct.any (· ≤ bound)) &&
    filters.subjectPersonnelId.all (r.subjectPersonnelId = ·) &&
    filters.seatUserId.all (isSeated r) &&
    (!filters.onCeoDesk || isOnCeoDesk r) &&
    filters.wasReturned.all (NexaHR.wasReturned db r.id = ·)

def check (filters : EvaluationFilters) : Except HTTPException Unit := do
  ensure (∀ low ∈ filters.minFinalPct, ∀ high ∈ filters.maxFinalPct, low ≤ high)
    ⟨400, "کمینهٔ امتیاز نهایی نمی‌تواند از بیشینهٔ آن بزرگ‌تر باشد", none⟩
  ensure (∀ first ∈ filters.createdFrom, ∀ last ∈ filters.createdTo, first ≤ last)
    ⟨400, "تاریخ شروع بازه نمی‌تواند بعد از تاریخ پایان آن باشد", none⟩

end EvaluationFilters

structure EvaluationPage where
  total : Nat
  items : List EvaluationRead
  deriving DecidableEq

def newestFirst (records : List EvaluationRecord) : List EvaluationRecord :=
  records.insertionSort fun a b => b.createdAt ≤ a.createdAt

def evaluationPage (db : Database) (found : List EvaluationRecord) (limit offset : Nat) : EvaluationPage where
  total := found.length
  items := (((newestFirst found).drop offset).take limit).map fun r =>
    { evaluationRead db r with wasReturned := wasReturned db r.id }

def listEvaluations (backend : Backend) (db : Database) (env : Env) (user : CurrentUser)
    (filters : EvaluationFilters) (limit offset : Nat) : Except HTTPException EvaluationPage := do
  let scope ← scopeEvaluationsForRole env user
  if user.role = .employee then
    pure ⟨0, []⟩
  else
    filters.check
    let visible := db.evaluationRecords.rows.filter scope
    pure (evaluationPage db (visible.filter (filters.admits backend db)) limit offset)

/-! ## The page of a record -/

structure SentConfig extends ScoreForm.AppConfig where
  evidenceMinWords : Nat
  evidenceMaxWords : Nat
  evidenceRequiredScores : List Nat

/-- `AppConfig.from_rules`. -/
def sentConfig (rules : Rules) : SentConfig :=
  { ScoreForm.AppConfig.fromRules rules with
    evidenceMinWords := rules.evidenceMinWords
    evidenceMaxWords := rules.evidenceMaxWords
    evidenceRequiredScores := rules.evidenceRequiredScores }

structure CommentRead where
  comment : EvaluationComment
  commenterUsername : Option String

structure SelfAssessmentRead where
  submittedAt : Nat
  note : Option String
  scores : List SelfAssessmentScore

structure EvaluationDetail extends EvaluationRead where
  scoringRules : SentConfig
  scores : List EvaluationScore
  comments : List CommentRead
  selfAssessment : Option SelfAssessmentRead
  indicatorIds : List Nat
  indicatorFrameworkVersion : Option Nat

def commentsOf (db : Database) (r : EvaluationRecord) : List CommentRead :=
  (db.evaluationComments.rows.filter fun c => c.evaluationRecordId = r.id).map fun c =>
    ⟨c, (db.users.get? c.commenterUserId).map User.username⟩

/-- `_self_assessment_of`. -/
def selfAssessmentOf (r : EvaluationRecord) : Option SelfAssessmentRead :=
  r.selfAssessmentSubmittedAt.map fun submittedAt =>
    ⟨submittedAt, r.selfAssessmentNote, r.selfAssessmentScores⟩

/-- `may_view_self_assessment`. -/
def mayViewSelfAssessment (role : UserRole) : Bool := role = .hr

/-- `_to_detail`. -/
def toDetail (db : Database) (r : EvaluationRecord) (user : CurrentUser) : EvaluationDetail :=
  let window := windowFor db r
  { evaluationRead db r with
    wasReturned := wasReturned db r.id
    submissionDeadline := window.closesOn
    submissionDeadlineExtended := window.extended
    scoringRules := sentConfig (rulesForRecord db r)
    scores := r.scores
    comments := commentsOf db r
    selfAssessment := if mayViewSelfAssessment user.role then selfAssessmentOf r else none
    indicatorIds := (indicatorIdsForRecord db r).dedup.insertionSort (· ≤ ·)
    indicatorFrameworkVersion :=
      (r.indicatorFrameworkId.bind db.indicatorFrameworks.get?).map IndicatorFramework.version }

def getEvaluation (db : Database) (user : CurrentUser) (evaluationId : Nat) :
    Except HTTPException EvaluationDetail := do
  let r ← require (db.evaluationRecords.get? evaluationId) evaluationNotFound
  ensureCanView r user
  pure (toDetail db r user)

/-! ## The document -/

/-- The archived documents, by record. -/
abbrev Archive : Type := Nat → Option String

def resultsHidden : HTTPException :=
  ⟨403, "نمایش نتیجهٔ ارزیابی برای کارکنان در این سازمان فعال نیست. " ++
    "برای دریافت سند به منابع انسانی مراجعه کنید.", none⟩

def ensureSubjectMayReadOwnResult (env : Env) : Except HTTPException Unit :=
  ensure (employeeResultsAreVisible env = true) resultsHidden

def pdfForOthers : HTTPException :=
  ⟨403, "خروجی PDF فقط برای منابع انسانی و خودِ فرد در دسترس است", none⟩

def weasyprintMissing : HTTPException :=
  ⟨500, "تولید PDF روی این سرور در دسترس نیست: کتابخانه‌های سیستمی WeasyPrint " ++
    "(Pango/Cairo/GDK-PixBuf) نصب نشده‌اند. برای فعال‌سازی چاپ، این کتابخانه‌ها " ++
    "را روی سرور نصب کنید (راهنما: بخش «چاپ PDF» در README).", none⟩

def pdfFailed : HTTPException :=
  ⟨500, "تولید PDF با خطا مواجه شد؛ لطفاً بعداً دوباره تلاش کنید یا با پشتیبانی تماس بگیرید.", none⟩

/-- `archive_final_pdf`: the archived document, else a new one. -/
def archiveFinalPdf (backend : Backend) (documents : Archive) (r : EvaluationRecord)
    (finalSnapshot : FinalSnapshot) : Option String :=
  match documents r.id with
  | some existing => some existing
  | none =>
    if backend.weasyprintAvailable then
      backend.renderEvaluationSummaryPdf finalSnapshot (r.verifyToken.map backend.verifyUrlFor)
    else none

/-- The answer, and what the download leaves behind. -/
structure PdfDownload where
  content : String
  filename : String
  auditLog : List AuditLog
  archived : Nat × String
  deriving DecidableEq

def ensureMayDownload (env : Env) (user : CurrentUser) (r : EvaluationRecord) : Except HTTPException Unit :=
  if user.isSubjectOf r then
    ensureSubjectMayReadOwnResult env
  else do
    ensureCanView r user
    ensure (user.role = .hr) pdfForOthers

def summaryPdf (backend : Backend) (documents : Archive) (env : Env) (user : CurrentUser)
    (r : EvaluationRecord) : Except HTTPException PdfDownload := do
  let finalSnapshot ← require (if r.status = .finalized then r.finalSnapshot else none)
    ⟨400, "ارزیابی هنوز نهایی نشده است", none⟩
  ensure (backend.weasyprintAvailable = true) weasyprintMissing
  let document ← require (archiveFinalPdf backend documents r finalSnapshot) pdfFailed
  pure
    { content := document
      filename := r.evaluationCode ++ ".pdf"
      auditLog := [recordEvent env user "pdf_downloaded" r]
      archived := (r.id, document) }

def evaluationSummaryPdf (backend : Backend) (documents : Archive) (db : Database) (env : Env)
    (user : CurrentUser) (evaluationId : Nat) : Except HTTPException PdfDownload := do
  let r ← require (db.evaluationRecords.get? evaluationId) evaluationNotFound
  ensureMayDownload env user r
  summaryPdf backend documents env user r

end NexaHR
