import NexaHR.Services.IndicatorFramework
import NexaHR.Services.Notifications
import NexaHR.Services.SelfEvaluation
import NexaHR.Services.Snapshot

/-! # Taking a transition

The second half of `services/workflow.py`: `apply_transition`, which every change of a status goes
through, and `finalize_scoring`, which the scorer's transitions run inside it.

* `Work`: what an endpoint did to one record before the commit.
* `applyTransition`, `applyTransition_ok`: the transition, and everything a taken one tells.
* `finalizeScoring`, `finalizeScoring_ok`: likewise for the result of the form.
-/

namespace NexaHR

open Foundations

set_option autoImplicit false

/-! ## Work on one record -/

structure NewComment where
  commenterUserId : Nat
  parentCommentId : Option Nat := none
  stage : CommentStage
  commentText : String
  deriving DecidableEq

/-- A record with the rows that were added beside it. -/
structure Work where
  record : EvaluationRecord
  comments : List NewComment := []
  auditLog : List AuditLog := []
  notifications : List Notification := []
  deriving DecidableEq

def insertComment (recordId : Nat) (comments : Table EvaluationComment) (c : NewComment) :
    Table EvaluationComment :=
  comments.insert
    (fun id =>
      { id := id
        evaluationRecordId := recordId
        commenterUserId := c.commenterUserId
        parentCommentId := c.parentCommentId
        stage := c.stage
        commentText := c.commentText })
    fun _ => rfl

/-- The commit. -/
def Work.commit (w : Work) (db : Database) : Database :=
  { db with
    evaluationRecords := db.evaluationRecords.put w.record
    evaluationComments := w.comments.foldl (insertComment w.record.id) db.evaluationComments
    auditLog := db.auditLog ++ w.auditLog
    notifications := db.notifications ++ w.notifications }

def recordEvent (env : Env) (user : CurrentUser) (eventType : String) (r : EvaluationRecord) :
    AuditLog where
  actorUserId := some user.id
  eventType := eventType
  evaluationRecordId := some r.id
  createdAt := env.now

/-! ## The transition -/

/-- The separation of duties for the transitions of HR. -/
def ensureHrDuties (spec : Transition) (r : EvaluationRecord) (user : CurrentUser) :
    Except HTTPException Unit :=
  if spec.allowedRole ≠ .hr then .ok ()
  else if spec.bypassesHrUnitShield then ensureNotDecidingAboutOneself r user
  else ensureHrMayHandle r user

def EvaluationRecord.hasResult (r : EvaluationRecord) : Bool :=
  r.finalWeightedPct.isSome && !r.scores.isEmpty

/-- Nothing is finalized without a result. -/
def ensureHasResult (spec : Transition) (r : EvaluationRecord) : Except HTTPException Unit :=
  ensure (spec.toStatus = .finalized → r.hasResult = true)
    ⟨400, "این پرونده نتیجهٔ محاسبه‌شده ندارد (امتیازی ثبت نشده است)؛ " ++
      "نهایی‌سازی بدون نتیجهٔ معتبر ممکن نیست", none⟩

/-- The transition takes an unowned record for the user. -/
def Transition.claims (spec : Transition) (r : EvaluationRecord) : Bool :=
  spec.claimableIfUnassigned && spec.assigneeField = some .hr && r.hrUserId.isNone

/-- Acting on an unowned record makes its owner. -/
def implicitClaim (env : Env) (spec : Transition) (r : EvaluationRecord) (user : CurrentUser) : Work :=
  if spec.claims r then
    { record := { r with hrUserId := some user.id }
      auditLog := [recordEvent env user "hr_case_claimed" r] }
  else { record := r }

/-- Nothing is finalized without its document. -/
def ensureHasSnapshot (spec : Transition) (r : EvaluationRecord) : Except HTTPException Unit :=
  ensure (spec.toStatus = .finalized → r.finalSnapshot.isSome = true)
    ⟨400, "سند نهایی این پرونده ساخته نشده است؛ نهایی‌سازی بدون سند، " ++
      "پرونده‌ای می‌سازد که هیچ‌وقت کارنامه نخواهد داشت", none⟩

/-- The record at its new status. -/
def EvaluationRecord.moved (r : EvaluationRecord) (env : Env) (toStatus : EvaluationStatus) :
    EvaluationRecord :=
  { r with
    status := toStatus
    stageEnteredAt := env.now
    finalizedAt :=
      if toStatus = .finalized ∧ r.finalizedAt = none then some env.now else r.finalizedAt }

def applyTransition (db : Database) (env : Env) (r : EvaluationRecord) (a : Action)
    (user : CurrentUser) (before : EvaluationRecord → Except HTTPException Work) :
    Except HTTPException Work := do
  let spec ← ensureTransitionAllowed r a user
  ensureHrDuties spec r user
  ensureHasResult spec r
  let claim := implicitClaim env spec r user
  let w ← before claim.record
  ensureHasSnapshot spec w.record
  let moved := w.record.moved env spec.toStatus
  let changed : AuditLog :=
    { recordEvent env user "status_changed" r with
      oldStatus := some w.record.status
      newStatus := some spec.toStatus }
  pure
    { record := moved
      comments := w.comments
      auditLog := claim.auditLog ++ w.auditLog ++ [changed]
      notifications := w.notifications ++ notifyForWorkflowAction db env moved a }

/-- The default `before`: nothing. -/
def nothingBefore (r : EvaluationRecord) : Except HTTPException Work := .ok { record := r }

/-! ### What a taken transition tells -/

theorem ensureHrDuties_ok {spec : Transition} {r : EvaluationRecord} {user : CurrentUser} {x : Unit}
    (h : ensureHrDuties spec r user = .ok x) (hr : spec.allowedRole = .hr) :
    ¬user.isSubjectOf r := by
  unfold ensureHrDuties at h
  rw [if_neg (not_not.mpr hr)] at h
  split at h
  · exact ensureNotDecidingAboutOneself_eq_ok.mp h
  · exact (ensureHrMayHandle_eq_ok.mp h).1

/-- The record that `before` is given. -/
def EvaluationRecord.claimedFor (r : EvaluationRecord) (a : Action) (user : CurrentUser) :
    EvaluationRecord :=
  if (transitions a).claims r then { r with hrUserId := some user.id } else r

theorem implicitClaim_record (env : Env) (r : EvaluationRecord) (a : Action) (user : CurrentUser) :
    (implicitClaim env (transitions a) r user).record = r.claimedFor a user := by
  unfold implicitClaim EvaluationRecord.claimedFor
  split <;> rfl

theorem applyTransition_ok {db : Database} {env : Env} {r : EvaluationRecord} {a : Action}
    {user : CurrentUser} {before : EvaluationRecord → Except HTTPException Work} {w : Work}
    (h : applyTransition db env r a user before = .ok w) :
    transitionBlock r a user = none ∧
      ((transitions a).allowedRole = .hr → ¬user.isSubjectOf r) ∧
      ((transitions a).toStatus = .finalized → r.hasResult = true) ∧
      ∃ w₀, before (r.claimedFor a user) = .ok w₀ ∧
        ((transitions a).toStatus = .finalized → w₀.record.finalSnapshot.isSome = true) ∧
        w.record = w₀.record.moved env (transitions a).toStatus ∧
        w.comments = w₀.comments ∧
        w.notifications =
          w₀.notifications ++ notifyForWorkflowAction db env w.record a := by
  unfold applyTransition at h
  simp only [bind_eq_ok, pure_eq_ok, ensureTransitionAllowed_eq_ok, ensureHasResult,
    ensureHasSnapshot, ensure_eq_ok] at h
  obtain ⟨spec, ⟨hblock, rfl⟩, x, hduties, -, hresult, w₀, hbefore, -, hsnap, rfl⟩ := h
  rw [implicitClaim_record] at hbefore
  exact ⟨hblock, fun hr => ensureHrDuties_ok hduties hr, hresult, w₀, hbefore, hsnap, rfl, rfl, rfl⟩

/-- A transition whose checks hold and whose `before` answers is taken. -/
theorem applyTransition_of_checks {db : Database} {env : Env} {r : EvaluationRecord} {a : Action}
    {user : CurrentUser} {before : EvaluationRecord → Except HTTPException Work} {w₀ : Work}
    (hblock : transitionBlock r a user = none) (hduties : ensureHrDuties (transitions a) r user = .ok ())
    (hresult : (transitions a).toStatus = .finalized → r.hasResult = true)
    (hbefore : before (r.claimedFor a user) = .ok w₀)
    (hsnap : (transitions a).toStatus = .finalized → w₀.record.finalSnapshot.isSome = true) :
    ∃ w, applyTransition db env r a user before = .ok w := by
  have hspec : ensureTransitionAllowed r a user = .ok (transitions a) :=
    ensureTransitionAllowed_eq_ok.mpr ⟨hblock, rfl⟩
  rw [← implicitClaim_record env] at hbefore
  unfold applyTransition
  simp only [hspec, bind_eq_ok, pure_eq_ok, ensureHasResult, ensureHasSnapshot, ensure_eq_ok]
  exact ⟨_, _, rfl, (), hduties, (), hresult, w₀, hbefore, (), hsnap, rfl⟩

/-! ## The result of the form -/

/-- The result as the columns of the record. -/
def EvaluationRecord.withResult (r : EvaluationRecord) (result : Result) : EvaluationRecord :=
  { r with
    baseWeightedPct := some result.baseWeightedPct
    generalScorePct := some result.generalScorePct
    specializedScorePct := some result.specializedScorePct
    finalWeightedPct := some result.finalWeightedPct
    recommendation := some result.recommendation }

/-- The result of the record's own scores, form, rules and special score. -/
def resultFor (db : Database) (r : EvaluationRecord) : Result :=
  computeResult r.scores (indicatorsForRecord db r) (rulesForRecord db r) (r.bonusPoints.getD 0)

def scoredIds (r : EvaluationRecord) : List Nat := r.scores.map EvaluationScore.indicatorId

/-- Every indicator of the record is scored, and nothing else. -/
def isComplete (db : Database) (r : EvaluationRecord) : Bool :=
  let asked := (indicatorsForRecord db r).map Indicator.id
  (scoredIds r).all (· ∈ asked) && asked.all (· ∈ scoredIds r)

def ensureEvidence (db : Database) (r : EvaluationRecord) : Except HTTPException Unit :=
  match validateEvidence r.scores (indicatorsForRecord db r) (rulesForRecord db r) with
  | none => .ok ()
  | some message => .error ⟨400, message, none⟩

def finalizeScoring (db : Database) (env : Env) (user : CurrentUser) (r : EvaluationRecord) :
    Except HTTPException Work := do
  ensure (isComplete db r = true)
    ⟨400, "باید به تمام شاخص‌های این ارزیابی (عمومی و تخصصی) امتیاز داده شود", none⟩
  ensureEvidence db r
  pure
    { record := r.withResult (resultFor db r)
      auditLog := [recordEvent env user "score_submitted" r] }

theorem finalizeScoring_ok {db : Database} {env : Env} {user : CurrentUser} {r : EvaluationRecord}
    {w : Work} (h : finalizeScoring db env user r = .ok w) :
    isComplete db r = true ∧ w.record = r.withResult (resultFor db r) ∧ w.comments = [] ∧
      w.notifications = [] := by
  unfold finalizeScoring at h
  simp only [bind_eq_ok, pure_eq_ok, ensure_eq_ok] at h
  obtain ⟨-, hcomplete, -, -, rfl⟩ := h
  exact ⟨hcomplete, rfl, rfl, rfl⟩

/-- A complete form is empty exactly when nothing is asked. -/
theorem isEmpty_scores_of_complete {db : Database} {r : EvaluationRecord}
    (h : isComplete db r = true) : r.scores = [] ↔ indicatorsForRecord db r = [] := by
  unfold isComplete scoredIds at h
  rw [Bool.and_eq_true, List.all_eq_true, List.all_eq_true] at h
  obtain ⟨hscored, hasked⟩ := h
  constructor
  · intro hnil
    rw [hnil] at hasked
    cases hi : indicatorsForRecord db r with
    | nil => rfl
    | cons i rest =>
      have hmem := hasked i.id (by rw [hi]; simp)
      simp at hmem
  · intro hnil
    rw [hnil] at hscored
    cases hs : r.scores with
    | nil => rfl
    | cons s rest =>
      have hmem := hscored s.indicatorId (by rw [hs]; simp)
      simp at hmem

end NexaHR
