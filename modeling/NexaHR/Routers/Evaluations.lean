import NexaHR.Routers.Guards
import NexaHR.Services.EvaluationWindow
import NexaHR.Services.Transition

/-! # The endpoints of one record

`api/routers/evaluations.py`, without the two ways to open a record. Each endpoint is a function
from the record it was called on to the work that it did, or a refusal. Texts from a request body
arrive stripped of outer blanks.
-/

namespace NexaHR

open Foundations

set_option autoImplicit false

def evaluationNotFound : HTTPException := ⟨404, "ارزیابی یافت نشد", none⟩

/-! ## Scoring -/

namespace EvaluationRecord

/-- `_is_the_scorer`: the record is a draft and the user scores it. -/
def isTheScorer (r : EvaluationRecord) (user : CurrentUser) : Bool :=
  r.status = .draft && (scorerSeat r).2 = some user.id && mayActAt user.role (scorerSeat r).1

end EvaluationRecord

/-- The rows of a form: each for an indicator that is asked, none twice. -/
def ensureRowsAreAsked (allowed : List Nat) : List Nat → List Nat → Except HTTPException Unit
  | [], _ => .ok ()
  | k :: ks, seen => do
    ensure (k ∈ allowed)
      ⟨400, "شاخص #" ++ toString k ++ " جزو شاخص‌های این ارزیابی نیست", none⟩
    ensure (k ∉ seen) ⟨400, "هر شاخص فقط یک‌بار می‌تواند امتیاز بگیرد", none⟩
    ensureRowsAreAsked allowed ks (k :: seen)

def upsertScores (db : Database) (env : Env) (user : CurrentUser) (r : EvaluationRecord)
    (scores : List EvaluationScore) : Except HTTPException Work := do
  ensure (r.isTheScorer user = true)
    ⟨403, "در این مرحله امکان ثبت/ویرایش امتیاز برای شما وجود ندارد", none⟩
  ensureRowsAreAsked ((indicatorsForRecord db r).map Indicator.id)
    (scores.map EvaluationScore.indicatorId) []
  pure
    { record := { r with scores := scores }
      auditLog := [recordEvent env user "scores_draft_saved" r] }

def setEvaluatorComment (user : CurrentUser) (r : EvaluationRecord) (evaluatorComment : String) :
    Except HTTPException Work := do
  ensure (r.isTheScorer user = true) ⟨403, "امکان ثبت نظر در این مرحله وجود ندارد", none⟩
  pure { record := { r with evaluatorComment := some evaluatorComment } }

/-- An empty reason is no reason. -/
def givenReason (bonusReason : Option String) : Option String :=
  (bonusReason.map strip).filter fun reason => reason ≠ ""

def setSpecialScore (db : Database) (env : Env) (user : CurrentUser) (r : EvaluationRecord)
    (bonusPoints : Rat) (bonusReason : Option String) : Except HTTPException Work := do
  ensure (r.isTheScorer user = true)
    ⟨403, "امکان ثبت امتیاز ویژه در این مرحله برای شما وجود ندارد", none⟩
  let reason := givenReason bonusReason
  match validateBonus bonusPoints reason (rulesForRecord db r) with
  | some message => .error ⟨400, message, none⟩
  | none =>
    pure
      { record :=
          { r with
            bonusPoints := some (numeric 2 bonusPoints)
            bonusReason := if 0 < bonusPoints then reason else none }
        auditLog := [recordEvent env user "special_score_set" r] }

/-! ## The stages -/

/-- The scorer's transition on this shape. -/
def submitAction (r : EvaluationRecord) : Action :=
  if r.isCeoOnlyPath then if r.skipsHrReview then .ceoSubmitHrSubject else .ceoSubmit
  else if r.isManagerPath then
    if r.skipsHrReview then .managerSubmitHrSubject else .managerSubmit
  else if r.skipsHrReview then .submitHrSubject
  else .submit

def submitEvaluation (db : Database) (env : Env) (user : CurrentUser) (r : EvaluationRecord) :
    Except HTTPException Work := do
  ensureSubmissionWindowOpen db env r "ثبت ارزیابی"
  applyTransition db env r (submitAction r) user (finalizeScoring db env user)

/-- `_stamp_finalization`: the time, the document, and the key of the public page. -/
def stampFinalization (db : Database) (env : Env) (r : EvaluationRecord) :
    Except HTTPException Work := do
  let stamped := { r with finalizedAt := some env.now }
  let snapshot ← buildFinalSnapshot db stamped
  pure { record := { stamped with finalSnapshot := some snapshot, verifyToken := some env.freshToken } }

/-- The approval of HR on this shape, which on the chief executive's own chain is the last word. -/
def hrApproveAction (r : EvaluationRecord) : Action :=
  if r.hrFinalizesRecord then .hrFinalizeDirectCeo
  else if r.isManagerPath then .hrApproveManager
  else .hrApprove

def hrApprove (db : Database) (env : Env) (user : CurrentUser) (r : EvaluationRecord) :
    Except HTTPException Work := do
  ensureHrMayHandle r user
  applyTransition db env r (hrApproveAction r) user
    (if r.hrFinalizesRecord then stampFinalization db env else nothingBefore)

def deputyApprove (db : Database) (env : Env) (user : CurrentUser) (r : EvaluationRecord) :
    Except HTTPException Work :=
  applyTransition db env r .deputyApprove user nothingBefore

def ceoFinalize (db : Database) (env : Env) (user : CurrentUser) (r : EvaluationRecord) :
    Except HTTPException Work :=
  applyTransition db env r .ceoFinalize user (stampFinalization db env)

/-! ## Returning -/

/-- `_RETURN_ACTIONS`. -/
def returnActions : List (Action × CommentStage) :=
  [(.hrReturn, .hrReview), (.deputyReturn, .deputyReview), (.deputyReturnHrSubject, .deputyReview),
    (.ceoReturn, .ceoFinal), (.ceoReturnManager, .ceoFinal), (.ceoReturnManagerHrSubject, .ceoFinal),
    (.ceoReturnCeoOnly, .ceoFinal), (.ceoReturnNoDeputy, .ceoFinal),
    (.ceoReturnNoDeputyHrSubject, .ceoFinal)]

/-- `_return_action_for`: the first return that is open to the user. -/
def returnActionFor (r : EvaluationRecord) (user : CurrentUser) : Option (Action × CommentStage) :=
  returnActions.find? fun entry => transitionIsAvailable r entry.1 user

/-- `_RETURN_ACTION_BY_ROLE`. -/
def returnActionByRole : UserRole → Option (Action × CommentStage)
  | .hr => some (.hrReturn, .hrReview)
  | .deputy => some (.deputyReturn, .deputyReview)
  | .ceo => some (.ceoReturn, .ceoFinal)
  | _ => none

/-- The chief executive's return on this shape. -/
def ceoReturnFor (r : EvaluationRecord) : Action :=
  if r.isCeoOnlyPath then .ceoReturnCeoOnly
  else if r.isManagerPath then .ceoReturnManager
  else if r.skipsDeputy then .ceoReturnNoDeputy
  else .ceoReturn

/-- Without an HR stage a return goes one step further back. -/
def withoutHrStage : Action → Action
  | .deputyReturn => .deputyReturnHrSubject
  | .ceoReturnManager => .ceoReturnManagerHrSubject
  | .ceoReturnNoDeputy => .ceoReturnNoDeputyHrSubject
  | a => a

/-- The choice by role, for the text of the refusal when no return is open. -/
def fallbackReturn (r : EvaluationRecord) (user : CurrentUser) :
    Except HTTPException (Action × CommentStage) := do
  let (action, stage) ← require (returnActionByRole user.role) accessRefusal
  let action := if action = .ceoReturn then ceoReturnFor r else action
  ensure (¬(action = .deputyReturn ∧ r.isManagerPath = true))
    ⟨400, "این پرونده مرحلهٔ معاونتِ جدا ندارد؛ نمره‌دهندهٔ اولش خودِ " ++
      (if r.isCeoOnlyPath then "مدیرعامل" else "معاونت") ++ " است", none⟩
  pure (if r.skipsHrReview then withoutHrStage action else action, stage)

def returnChoice (r : EvaluationRecord) (user : CurrentUser) :
    Except HTTPException (Action × CommentStage) :=
  match returnActionFor r user with
  | some choice => .ok choice
  | none => fallbackReturn r user

/-- `_do_return`. -/
def doReturn (db : Database) (env : Env) (user : CurrentUser) (r : EvaluationRecord) (a : Action)
    (stage : CommentStage) (reason : String) : Except HTTPException Work :=
  applyTransition db env r a user fun claimed =>
    .ok
      { record := claimed
        comments :=
          [{ commenterUserId := user.id
             stage := stage
             commentText := "برگشت پرونده — دلیل: " ++ reason }]
        auditLog := [recordEvent env user "evaluation_returned" r] }

def returnEvaluation (db : Database) (env : Env) (user : CurrentUser) (r : EvaluationRecord)
    (reason : String) : Except HTTPException Work := do
  ensureHrMayHandle r user
  let (action, stage) ← returnChoice r user
  doReturn db env user r action stage reason

/-! ## Administration -/

def cancelAction (user : CurrentUser) : Action :=
  if user.role = .hr then .cancel else .cancelHrSubject

def cancelEvaluation (db : Database) (env : Env) (user : CurrentUser) (r : EvaluationRecord)
    (reason : String) : Except HTTPException Work := do
  ensureMayAdminister r user
  applyTransition db env r (cancelAction user) user fun claimed =>
    .ok
      { record := claimed
        comments :=
          [{ commenterUserId := user.id
             stage := .hrReview
             commentText := "لغو پرونده — دلیل: " ++ reason }]
        auditLog := [recordEvent env user "evaluation_cancelled" r] }

def extendSubmissionWindow (db : Database) (env : Env) (user : CurrentUser) (r : EvaluationRecord)
    (untilDate : Nat) (reason : String) : Except HTTPException Work := do
  ensureMayAdminister r user
  ensure (r.status = .draft)
    ⟨400, "این پرونده دیگر در مرحلهٔ ثبت نیست، پس تمدیدِ مهلت چیزی را باز نمی‌کند.", none⟩
  ensure ((windowFor db r).unlimited = false)
    ⟨400, "این پرونده به هیچ دورهٔ ارزیابی‌ای وصل نیست و از ابتدا مهلتی ندارد؛ " ++
      "ثبت روی آن همچنان باز است و تمدید چیزی را عوض نمی‌کند.", none⟩
  pure
    { record :=
        { r with
          submissionExtendedUntil := some untilDate
          submissionExtendedAt := some env.now
          submissionExtendedByUserId := some user.id
          submissionExtensionReason := some reason }
      comments :=
        [{ commenterUserId := user.id
           stage := .hrReview
           commentText := "تمدید مهلت ثبت تا " ++ env.faDate untilDate ++ " — دلیل: " ++ reason }]
      auditLog := [recordEvent env user "submission_window_extended" r]
      notifications :=
        notify env r.chain.scorer.toList "submission_window_extended"
          ("مهلت ثبت پروندهٔ " ++ r.evaluationCode ++ " تا " ++ env.faDate untilDate ++ " تمدید شد")
          (some r.id) (some (evaluationLink r.id)) }

def hrDisplayName (db : Database) (r : EvaluationRecord) : String :=
  ((r.hrUserId.bind db.users.get?).map db.displayName).getD "None"

def hrClaim (db : Database) (env : Env) (user : CurrentUser) (r : EvaluationRecord) :
    Except HTTPException Work := do
  ensureHrMayHandle r user
  ensure (r.isOpen = true) ⟨400, "فقط پروندهٔ باز می‌تواند مسئول منابع انسانی بگیرد", none⟩
  ensure (r.hrUserId = none)
    ⟨409, "این پرونده از قبل در اختیار «" ++ hrDisplayName db r ++ "» است؛ " ++
      "برای جابه‌جایی از «واگذاری» استفاده کنید.", none⟩
  pure
    { record := { r with hrUserId := some user.id }
      auditLog := [recordEvent env user "hr_case_claimed" r] }

def handoverTargetRefusal : HTTPException :=
  ⟨400, "کاربر انتخاب‌شده یافت نشد، غیرفعال است، یا نقش منابع انسانی ندارد", none⟩

def hrHandover (db : Database) (env : Env) (user : CurrentUser) (r : EvaluationRecord)
    (newHrUserId : Nat) (reason : String) : Except HTTPException Work := do
  ensureHrMayHandle r user
  ensure (r.isOpen = true) ⟨400, "فقط مسئولِ منابع انسانیِ یک پروندهٔ باز قابل تغییر است", none⟩
  let newOwner ← require (db.users.get? newHrUserId) handoverTargetRefusal
  ensure (newOwner.isActive = true ∧ newOwner.role = .hr) handoverTargetRefusal
  ensure (r.hrUserId ≠ some newOwner.id) ⟨400, "این پرونده از قبل در اختیار همین کاربر است", none⟩
  ensure (newOwner.personnelId ≠ some r.subjectPersonnelId)
    ⟨400, "نمی‌توان پرونده را به کسی واگذار کرد که خودش موضوع همان پرونده است", none⟩
  pure
    { record := { r with hrUserId := some newOwner.id }
      comments :=
        [{ commenterUserId := user.id
           stage := .hrReview
           commentText := "واگذاری مسئولیت منابع انسانی — دلیل: " ++ reason }]
      auditLog := [recordEvent env user "hr_case_handed_over" r]
      notifications := notifyStageOwnerReassigned db env r newOwner.id hrLabel }

/-- The chain with another occupant of one of its seats, before the rules of a chain are asked. -/
def seatsWith (c : Chain) (stageField : ChainSeat) (userId : Nat) : Option Nat × Option Nat × Nat :=
  match stageField with
  | .unitSupervisor => (some userId, c.deputyUserId, c.ceoUserId)
  | .deputy => (c.unitSupervisorUserId, some userId, c.ceoUserId)
  | .ceo => (c.unitSupervisorUserId, c.deputyUserId, userId)

def reassignStageOwner (db : Database) (env : Env) (user : CurrentUser) (r : EvaluationRecord)
    (stageField : ChainSeat) (newUserId : Nat) (reason : String) : Except HTTPException Work := do
  let stageLabel := seatLabel stageField
  ensureMayAdminister r user
  ensure (r.isOpen = true) ⟨400, "فقط مسئول مراحل یک پروندهٔ باز قابل تغییر است", none⟩
  ensure ((r.chain.seat stageField).isSome = true)
    ⟨400, "این پرونده مرحلهٔ «" ++ stageLabel ++ "» ندارد (مسیر «مدیر»)", none⟩
  let newUser ← require ((db.users.get? newUserId).filter User.isActive)
    ⟨400, "کاربر انتخاب‌شده برای «" ++ stageLabel ++ "» یافت نشد یا غیرفعال است", none⟩
  ensure (newUser.role = seatRole stageField)
    ⟨400, "کاربر انتخاب‌شده برای «" ++ stageLabel ++ "» باید نقش «" ++ stageLabel ++
      "» داشته باشد", none⟩
  ensureEvaluatorsAreNotTheSubject db r.subjectPersonnelId [some newUserId]
  let (unitSupervisorUserId, deputyUserId, ceoUserId) := seatsWith r.chain stageField newUserId
  let chain ← ensureChainStagesAreNotRedundant db unitSupervisorUserId deputyUserId ceoUserId
  pure
    { record := { r with chain := chain }
      comments :=
        [{ commenterUserId := user.id
           stage := .hrReview
           commentText := "تغییر مسئول «" ++ stageLabel ++ "» — دلیل: " ++ reason }]
      auditLog := [recordEvent env user "stage_owner_reassigned" r]
      notifications := notifyStageOwnerReassigned db env r newUser.id stageLabel }

/-! ## Objections -/

/-- `_ensure_can_resolve_objection`. -/
def ensureCanResolveObjection (r : EvaluationRecord) (user : CurrentUser) :
    Except HTTPException Unit :=
  match objectionResolverField r with
  | none => do
    ensure (user.role = .hr) ⟨403, "رسیدگی به اعتراضِ این پرونده با منابع انسانی است", none⟩
    ensureHrMayHandle r user
  | some seat => do
    ensure (r.chain.seat seat = some user.id ∧ mayActAt user.role (seatRole seat) = true)
      ⟨403, "این پرونده متعلق به واحد منابع انسانی است؛ رسیدگی به اعتراضِ آن با " ++
        "«" ++ seatLabel seat ++ "» است، نه منابع انسانی.", none⟩
    ensureHrMayHandle r user

def resolveObjection (db : Database) (env : Env) (user : CurrentUser) (r : EvaluationRecord)
    (resolution : String) : Except HTTPException Work := do
  ensureCanResolveObjection r user
  ensure (r.objectionAt.isSome = true) ⟨400, "برای این پرونده اعتراضی ثبت نشده است", none⟩
  ensure (r.objectionResolvedAt = none) ⟨400, "به این اعتراض قبلاً پاسخ داده شده است", none⟩
  let recipients :=
    if employeeResultsAreVisible env then subjectUserIds db r.subjectPersonnelId else []
  pure
    { record :=
        { r with
          objectionResolvedAt := some env.now
          objectionResolution := some resolution
          objectionResolvedByUserId := some user.id }
      auditLog := [recordEvent env user "evaluation_objection_resolved" r]
      notifications :=
        notify env recipients "evaluation_objection_resolved"
          ("به اعتراض شما دربارهٔ پروندهٔ " ++ r.evaluationCode ++ " پاسخ داده شد")
          (some r.id) (some "/me") }

/-! ## Comments -/

/-- The stage at which a role comments, the status it needs and the seat that must be his. -/
def commentStageFor (r : EvaluationRecord) :
    UserRole → Option (CommentStage × EvaluationStatus × Option Nat)
  | .hr => some (.hrReview, .submitted, r.hrUserId)
  | .deputy => some (.deputyReview, .hrApproved, r.chain.deputyUserId)
  | .ceo => some (.ceoFinal, .deputyApproved, some r.chain.ceoUserId)
  | _ => none

def commentRefusal : HTTPException :=
  ⟨403, "در این مرحله امکان ثبت کامنت برای شما وجود ندارد", none⟩

/-- A comment by HR on an unowned record takes it. -/
def commentClaims (user : CurrentUser) (requiredUserId : Option Nat) : Bool :=
  user.role = .hr && requiredUserId.isNone

def addComment (env : Env) (user : CurrentUser) (r : EvaluationRecord) (commentText : String) :
    Except HTTPException Work := do
  ensureHrMayHandle r user
  let (stage, requiredStatus, requiredUserId) ← require (commentStageFor r user.role)
    ⟨403, "نقش شما اجازه ثبت کامنت ندارد", none⟩
  ensure (r.status = requiredStatus) commentRefusal
  ensure (commentClaims user requiredUserId = true ∨ requiredUserId = some user.id)
    (if user.role = .hr then ⟨403, hrOwnerErrorDetail, none⟩ else commentRefusal)
  let claims := commentClaims user requiredUserId
  pure
    { record := if claims then { r with hrUserId := some user.id } else r
      comments := [{ commenterUserId := user.id, stage := stage, commentText := commentText }]
      auditLog :=
        (if claims then [recordEvent env user "hr_case_claimed" r] else []) ++
          [recordEvent env user "comment_added" r] }

/-- `_ensure_can_view`. -/
def ensureCanView (r : EvaluationRecord) (user : CurrentUser) : Except HTTPException Unit := do
  ensureHrMayHandle r user
  ensure (user.role = .hr ∨ user.id ∈ r.chain.occupants) evaluationNotFound

/-- `_add_reply`. -/
def addReply (db : Database) (env : Env) (user : CurrentUser) (r : EvaluationRecord)
    (parentCommentId : Nat) (commentText : String) : Except HTTPException Work := do
  ensureCanView r user
  let parent ← require
    ((db.evaluationComments.get? parentCommentId).filter fun c => c.evaluationRecordId = r.id)
    ⟨404, "کامنتِ والد یافت نشد", none⟩
  ensure (parent.parentCommentId = none)
    ⟨400, "پاسخ‌ها فقط یک سطح عمق دارند؛ نمی‌توان به یک پاسخ، پاسخ داد", none⟩
  pure
    { record := r
      comments :=
        [{ commenterUserId := user.id
           parentCommentId := some parent.id
           stage := parent.stage
           commentText := commentText }]
      auditLog := [recordEvent env user "comment_reply_added" r]
      notifications :=
        if parent.commenterUserId = user.id then []
        else
          notify env [parent.commenterUserId] "comment_reply_added"
            ("پاسخی به کامنت شما در پروندهٔ " ++ r.evaluationCode ++ " ثبت شد")
            (some r.id) (some (evaluationLink r.id)) }

end NexaHR
