import NexaHR.Services.Evaluation

/-! # The final document

`services/snapshot.py`: what is printed when a record is finalized, from the record as it is at
that moment.
-/

namespace NexaHR

open Foundations

set_option autoImplicit false

def snapshotVersion : Nat := 6

/-! ## Parts of the document -/

/-- The seat that scored the record, and what the document calls it. -/
def evaluatorSeat (r : EvaluationRecord) : Option Nat × String :=
  let field := scorerField r.chain.unitSupervisorUserId r.chain.deputyUserId
  (r.chain.seat field, seatLabel field)

def finalApproverUserId (r : EvaluationRecord) : Option Nat :=
  if r.hrFinalizesRecord then r.hrUserId else some r.chain.ceoUserId

def singleDecider (r : EvaluationRecord) : Bool :=
  r.chain.scorer.isSome && decide (r.chain.scorer = finalApproverUserId r)

def appliedBonusForDocument (db : Database) (r : EvaluationRecord) : Option Rat :=
  let raw := r.bonusPoints.getD 0
  let applied := appliedBonus raw (rulesForRecord db r) (r.baseWeightedPct.getD 0)
  if raw = 0 ∨ applied = 0 then none else some applied

def snapshotScore (db : Database) (s : EvaluationScore) : SnapshotScore :=
  match db.indicators.get? s.indicatorId with
  | some indicator =>
    { indicatorId := s.indicatorId
      category := indicator.category
      description := indicator.description
      «section» := indicator.section.value
      score := s.score
      evidenceText := s.evidenceText }
  | none =>
    { indicatorId := s.indicatorId
      category := "—"
      description := "(شاخص حذف‌شده)"
      «section» := IndicatorSection.general.value
      score := s.score
      evidenceText := s.evidenceText }

def selfAssessmentRow (db : Database) (evaluatorScores : List EvaluationScore)
    (entry : SelfAssessmentScore) : SelfAssessmentRow :=
  let indicator := db.indicators.get? entry.indicatorId
  let evaluatorScore :=
    (evaluatorScores.find? fun row => row.indicatorId = entry.indicatorId).map EvaluationScore.score
  { indicatorId := entry.indicatorId
    category := (indicator.map Indicator.category).getD "—"
    description := (indicator.map Indicator.description).getD "(شاخص حذف‌شده)"
    selfScore := entry.score
    evaluatorScore := evaluatorScore
    gap := evaluatorScore.map fun score => (entry.score : Int) - score
    note := entry.note }

def gapSize (row : SelfAssessmentRow) : Nat := (row.gap.getD 0).natAbs

/-- The comparison sheet, the largest differences first. -/
def selfAssessmentBlock (db : Database) (r : EvaluationRecord) : Option SelfAssessmentBlock :=
  r.selfAssessmentSubmittedAt.map fun submittedAt =>
    let rows := r.selfAssessmentScores.map (selfAssessmentRow db r.scores)
    { submittedAt := submittedAt
      note := r.selfAssessmentNote
      rows := rows.mergeSort fun a b => gapSize b ≤ gapSize a }

/-! ## The document -/

def buildFinalSnapshot (db : Database) (r : EvaluationRecord) : Except HTTPException FinalSnapshot := do
  let personnel ← require (db.personnel.get? r.subjectPersonnelId)
    ⟨500, "پرسنل مرتبط با این ارزیابی یافت نشد؛ امکان ساخت سند نهایی نیست", none⟩
  let evaluator := (evaluatorSeat r).1.bind db.users.get?
  let comments := db.evaluationComments.rows.filter fun c => c.evaluationRecordId = r.id
  pure
    { snapshotVersion := snapshotVersion
      personnel :=
        { fullName := personnel.fullName
          personnelCode := personnel.personnelCode
          jobTitle := personnel.jobTitle
          orgUnit := personnel.orgUnit }
      evaluator :=
        { username := evaluator.map User.username
          displayName := evaluator.map db.displayName
          roleLabel := (evaluatorSeat r).2 }
      singleDecider := singleDecider r
      signatories := documentSignatories r
      selfAssessment := selfAssessmentBlock db r
      evaluationStartedAt := r.createdAt
      evaluationCode := r.evaluationCode
      generalScorePct := r.generalScorePct
      specializedScorePct := r.specializedScorePct
      finalWeightedPct := r.finalWeightedPct
      baseWeightedPct := r.baseWeightedPct
      bonusPoints := appliedBonusForDocument db r
      bonusReason := r.bonusReason
      recommendation := r.recommendation
      evaluatorComment := r.evaluatorComment
      scores := r.scores.map (snapshotScore db)
      comments := comments.map fun c => ⟨c.stage, c.commenterUserId, c.commentText⟩
      finalizedAt := r.finalizedAt }

/-- The document of an existing person's record is built from the record's seats. -/
theorem buildFinalSnapshot_ok {db : Database} {r : EvaluationRecord} {s : FinalSnapshot}
    (h : buildFinalSnapshot db r = .ok s) :
    s.signatories = documentSignatories r ∧
      s.evaluator.username = (r.chain.scorer.bind db.users.get?).map User.username ∧
      s.evaluator.displayName = (r.chain.scorer.bind db.users.get?).map db.displayName := by
  unfold buildFinalSnapshot at h
  simp only [bind_eq_ok, pure_eq_ok] at h
  obtain ⟨p, -, rfl⟩ := h
  exact ⟨rfl, rfl, rfl⟩

end NexaHR
