import NexaHR.Routers.Evaluations

/-! # The subject's own endpoints

`api/routers/me.py` and the invitation of `services/self_assessment.py`.
-/

namespace NexaHR

open Foundations

set_option autoImplicit false

/-- `_my_record_or_404`: the record is about the person behind the account. -/
def ensureMyRecord (r : EvaluationRecord) (user : CurrentUser) : Except HTTPException Unit :=
  ensure (user.isSubjectOf r) evaluationNotFound

/-! ## Self-assessment -/

def maySelfAssess (role : UserRole) : Bool := role ≠ .ceo && role ≠ .deputy

def submitSelfAssessment (db : Database) (env : Env) (user : CurrentUser) (r : EvaluationRecord)
    (scores : List SelfAssessmentScore) (note : Option String) : Except HTTPException Work := do
  ensureMyRecord r user
  ensure (maySelfAssess user.role = true) ⟨403, "برای این نقش خودارزیابی تعریف نشده است", none⟩
  ensure (r.status = .draft)
    ⟨400, "پنجرهٔ خودارزیابی بسته است؛ نمرهٔ ارزیاب قبلاً ثبت شده", none⟩
  ensureSubmissionWindowOpen db env r "خودارزیابی"
  ensure (r.selfAssessmentSubmittedAt = none)
    ⟨400, "خودارزیابی شما قبلاً ثبت شده و قابل تغییر نیست", none⟩
  let allowed := indicatorIdsForRecord db r
  let scored := scores.map SelfAssessmentScore.indicatorId
  ensureRowsAreAsked allowed scored []
  let missing := allowed.dedup.filter (· ∉ scored)
  ensure (missing = [])
    ⟨400, "به " ++ toString missing.length ++ " شاخص امتیاز داده نشده است. اگر فهرست شاخص‌ها را " ++
      "کامل نمی‌بینید، صفحه را تازه کنید؛ ممکن است منابع انسانی همین حالا آن را " ++
      "تغییر داده باشد.", none⟩
  pure
    { record :=
        { r with
          selfAssessmentScores := scores
          selfAssessmentSubmittedAt := some env.now
          selfAssessmentNote := note }
      auditLog := [recordEvent env user "self_assessment_submitted" r] }

def invitationText (isReminder : Bool) : String :=
  if isReminder then
    "یادآوری: هنوز خودارزیابیِ این دوره را ثبت نکرده‌اید. تا پیش از " ++
    "قطعی‌شدنِ نمرهٔ ارزیاب می‌توانید دیدگاهتان را ثبت کنید."
  else
    "فرم خودارزیابی این دوره برای شما باز است. دیدگاه خودتان دربارهٔ " ++
    "عملکردتان را می‌توانید تا پایان مهلت ثبت کنید."

/-- The invitation, on the person's record that is open for self-assessment. -/
def inviteSelfAssessment (db : Database) (env : Env) (user : CurrentUser) (r : EvaluationRecord) :
    Except HTTPException Work := do
  let account ← require
    (db.users.rows.find? fun u => u.personnelId = some r.subjectPersonnelId && u.isActive)
    ⟨400, "این فرد حساب کاربری فعالی ندارد، پس اعلانی دریافت نمی‌کند. ابتدا از همین " ++
      "صفحه برایش حساب بسازید.", none⟩
  ensure (r.status = .draft)
    ⟨400, "پروندهٔ بازی برای این فرد وجود ندارد. خودارزیابی به یک پروندهٔ ارزیابی " ++
      "وصل می‌شود، پس ابتدا مسئول واحد باید پرونده را آغاز کند.", none⟩
  ensure (r.selfAssessmentSubmittedAt = none) ⟨400, "این فرد خودارزیابی‌اش را قبلاً ثبت کرده است", none⟩
  let isReminder := r.selfAssessmentInvitedAt.isSome
  pure
    { record :=
        { r with
          selfAssessmentInvitedAt := some env.now
          selfAssessmentInvitedByUserId := some user.id }
      auditLog :=
        [recordEvent env user
          (if isReminder then "self_assessment_reminded" else "self_assessment_invited") r]
      notifications :=
        notify env [account.id] "self_assessment_invited" (invitationText isReminder) (some r.id)
          (some ("/me?self-assessment=" ++ toString r.id)) }

/-! ## The result -/

def fileObjection (db : Database) (env : Env) (user : CurrentUser) (r : EvaluationRecord)
    (reason : String) : Except HTTPException Work := do
  ensureMyRecord r user
  ensure (r.status = .finalized) ⟨400, "فقط به ارزیابی نهایی‌شده می‌توان اعتراض کرد", none⟩
  let acknowledgedAt ← require r.acknowledgedAt
    ⟨400, "ابتدا مشاهدهٔ نتیجه را ثبت کنید، سپس در صورت لزوم اعتراض بگذارید", none⟩
  ensure (r.objectionAt = none) ⟨400, "برای این ارزیابی قبلاً اعتراض ثبت شده است", none⟩
  ensure (env.now ≤ acknowledgedAt + env.objectionWindowDays * 86400)
    ⟨400, "مهلت اعتراض (" ++ faDigits (toString env.objectionWindowDays) ++
      " روز پس از مشاهدهٔ نتیجه) به پایان رسیده است", none⟩
  let recipients :=
    match objectionResolverField r with
    | none => activeHrIds db
    | some seat => (r.chain.seat seat).toList
  pure
    { record := { r with objectionAt := some env.now, objectionReason := some reason }
      auditLog := [recordEvent env user "evaluation_objection_filed" r]
      notifications :=
        notify env recipients "evaluation_objection_filed"
          ("کارمند " ++ db.subjectFullName r ++ " به نتیجهٔ پروندهٔ " ++ r.evaluationCode ++
            " اعتراض ثبت کرد") (some r.id) (some (evaluationLink r.id)) }

def acknowledgeEvaluation (db : Database) (env : Env) (user : CurrentUser) (r : EvaluationRecord) :
    Except HTTPException Work := do
  ensureMyRecord r user
  ensure (r.status = .finalized)
    ⟨400, "فقط ارزیابی نهایی‌شده را می‌توان مشاهده‌شده ثبت کرد", none⟩
  ensure (r.acknowledgedAt = none) ⟨400, "مشاهدهٔ این ارزیابی قبلاً ثبت شده است", none⟩
  pure
    { record :=
        { r with acknowledgedAt := some env.now, acknowledgedByUserId := some user.id }
      auditLog := [recordEvent env user "evaluation_acknowledged" r]
      notifications :=
        notify env (activeHrIds db) "evaluation_acknowledged"
          ("کارمند " ++ db.subjectFullName r ++ " نتیجه پرونده " ++ r.evaluationCode ++ " را دید")
          (some r.id) (some (evaluationLink r.id)) }

end NexaHR
