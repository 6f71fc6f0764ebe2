import NexaHR.Routers.Directory

/-! # The form and its rules

`api/routers/indicators.py` and `scoring_schemes.py`: the indicators, whose every change of
membership is published as a new framework, and the versions of the scoring rules, with the preview of
a version that is proposed.
-/

namespace NexaHR

open Foundations

set_option autoImplicit false

/-! ## Publishing -/

/-- `_publish`: a new version, and the untouched open records moved to it. -/
def publish (db : Database) (user : CurrentUser) (changeKind : String) (changeNote : Option String) :
    Database :=
  let (framework, bumped) := bump db (some user.id) changeKind changeNote
  rebindUntouchedOpenRecords bumped framework

/-! ## Indicators -/

def indicatorNotFound : HTTPException := ⟨404, "شاخص یافت نشد", none⟩

def scoredCount (db : Database) (indicatorId : Nat) : Nat :=
  (db.evaluationRecords.rows.flatMap fun r =>
    r.scores.filter fun s => s.indicatorId = indicatorId).length

def nextDisplayOrder (db : Database) («section» : IndicatorSection) : Nat :=
  ((db.indicators.rows.filter fun i => i.section = «section»).map Indicator.displayOrder).foldl max 0 + 1

def insertIndicator (db : Database) («section» : IndicatorSection) (category description : String)
    (displayOrder : Nat) : Database :=
  { db with
    indicators := db.indicators.insert
      (fun id =>
        { id := id
          «section» := «section»
          category := category
          description := description
          displayOrder := displayOrder
          isActive := true })
      fun _ => rfl }

def createIndicator (db : Database) (env : Env) (user : CurrentUser) («section» : IndicatorSection)
    (category description : String) : Except HTTPException Database := do
  requireCapability env .manageScoring
  let created := insertIndicator db «section» category description (nextDisplayOrder db «section»)
  pure ((publish created user "indicator_added" none).log [directoryEvent env user "indicator_created"])

structure IndicatorUpdate where
  category : Option String := none
  description : Option String := none
  displayOrder : Option Nat := none
  isActive : Option Bool := none
  wordingFixReason : Option String := none

namespace Indicator

def updated (i : Indicator) (p : IndicatorUpdate) : Indicator :=
  { i with
    category := p.category.getD i.category
    description := p.description.getD i.description
    displayOrder := p.displayOrder.getD i.displayOrder
    isActive := p.isActive.getD i.isActive }

/-- The update rewrites what the indicator asks. -/
def rewritesMeaning (i : Indicator) (p : IndicatorUpdate) : Bool :=
  p.category.any (· ≠ i.category) || p.description.any (· ≠ i.description)

end Indicator

def updateIndicator (db : Database) (env : Env) (user : CurrentUser) (indicatorId : Nat)
    (p : IndicatorUpdate) : Except HTTPException Database := do
  requireCapability env .manageScoring
  let i ← require (db.indicators.get? indicatorId) indicatorNotFound
  ensure (¬(i.rewritesMeaning p = true ∧ p.wordingFixReason = none ∧ 0 < scoredCount db indicatorId))
    ⟨409, "به این شاخص قبلاً در ارزیابی‌هایی نمره داده شده است. اگر فقط نگارش " ++
      "را اصلاح می‌کنید، دلیلش را بنویسید تا ثبت شود؛ اگر معنای سؤال عوض " ++
      "می‌شود، به‌جای ویرایش، آن را با شاخص تازه «جایگزین» کنید تا " ++
      "مقایسه‌های گذشته معتبر بمانند.", none⟩
  let updated := i.updated p
  let written : Database := { db with indicators := db.indicators.put updated }
  let published :=
    if updated.isActive = i.isActive then written
    else
      publish written user
        (if updated.isActive then "indicator_activated" else "indicator_deactivated") none
  pure (published.log [directoryEvent env user "indicator_updated"])

def replaceIndicator (db : Database) (env : Env) (user : CurrentUser) (indicatorId : Nat)
    (category description reason : String) : Except HTTPException Database := do
  requireCapability env .manageScoring
  let old ← require (db.indicators.get? indicatorId) indicatorNotFound
  ensure (old.isActive = true)
    ⟨409, "این شاخص از قبل غیرفعال است؛ برای افزودن سؤال تازه از «شاخص جدید» استفاده کنید", none⟩
  let retired : Database := { db with indicators := db.indicators.put { old with isActive := false } }
  let replaced := insertIndicator retired old.section category description old.displayOrder
  pure
    ((publish replaced user "indicator_replaced" (some reason)).log
      [directoryEvent env user "indicator_replaced"])

/-- A self-assessment row names the indicator. -/
def isSelfAssessed (db : Database) (indicatorId : Nat) : Bool :=
  db.evaluationRecords.rows.any fun r =>
    r.selfAssessmentScores.any fun s => s.indicatorId = indicatorId

def deleteIndicator (db : Database) (env : Env) (user : CurrentUser) (indicatorId : Nat) :
    Except HTTPException Database := do
  requireCapability env .manageScoring
  let i ← require (db.indicators.get? indicatorId) indicatorNotFound
  ensure (scoredCount db indicatorId = 0)
    ⟨409, "این شاخص در ارزیابی‌های ثبت‌شده استفاده شده و قابل حذف نیست؛ " ++
      "برای کنار گذاشتن آن از فرم‌های جدید، «غیرفعال»‌اش کنید.", none⟩
  ensure (isSelfAssessed db indicatorId = false) internalServerError
  let deleted : Database := { db with indicators := db.indicators.filter fun j => j.id ≠ i.id }
  pure ((publish deleted user "indicator_deleted" none).log [directoryEvent env user "indicator_deleted"])

/-- The new place of an indicator in its section. -/
def reordered («section» : IndicatorSection) (orderedIds : List Nat) (i : Indicator) : Indicator :=
  if i.section = «section» then { i with displayOrder := orderedIds.idxOf i.id + 1 } else i

theorem reordered_id («section» : IndicatorSection) (orderedIds : List Nat) (i : Indicator) :
    HasId.id (reordered «section» orderedIds i) = HasId.id i := by
  unfold reordered
  split <;> rfl

def reorderIndicators (db : Database) (env : Env) (user : CurrentUser) («section» : IndicatorSection)
    (orderedIds : List Nat) : Except HTTPException Database := do
  requireCapability env .manageScoring
  let existing := (db.indicators.rows.filter fun i => i.section = «section»).map Indicator.id
  ensure (orderedIds.Nodup ∧ orderedIds.all (· ∈ existing) = true ∧ existing.all (· ∈ orderedIds) = true)
    ⟨400, "فهرست ترتیب باید دقیقاً شامل همهٔ شاخص‌های همین بخش باشد", none⟩
  pure
    (({ db with
        indicators := db.indicators.map (reordered «section» orderedIds)
          (reordered_id «section» orderedIds) } : Database).log
      [directoryEvent env user "indicators_reordered"])

/-! ## Schemes -/

def schemeNotFound : HTTPException := ⟨404, "طرح یافت نشد", none⟩

def nextVersion (db : Database) : Nat :=
  (db.scoringSchemes.rows.map ScoringScheme.version).foldl max 0 + 1

/-- A draft of the input. Its columns round the weights and the points. -/
def newScheme (p : SchemeInput) (h : p.thresholds ≠ []) (version createdByUserId id : Nat) :
    ScoringScheme where
  id := id
  version := version
  name := p.name
  status := .draft
  generalSectionWeight := numeric 3 p.generalSectionWeight
  specializedSectionWeight := numeric 3 p.specializedSectionWeight
  evidenceRequiredScores := p.evidenceRequiredScores.map Int.toNat
  evidenceMinWords := p.evidenceMinWords.toNat
  evidenceMaxWords := p.evidenceMaxWords.toNat
  bonusMaxPoints := numeric 2 p.bonusMaxPoints
  improvementPlanMaxPct := numeric 2 p.improvementPlanMaxPct
  thresholds := p.thresholds
  thresholds_ne := h
  indicatorWeights := p.indicatorWeights
  createdByUserId := some createdByUserId
  activatedByUserId := none

theorem newScheme_id (p : SchemeInput) (h : p.thresholds ≠ []) (version createdByUserId id : Nat) :
    HasId.id (newScheme p h version createdByUserId id) = id := rfl

def createScheme (db : Database) (env : Env) (user : CurrentUser) (p : SchemeInput) :
    Except HTTPException Database := do
  requireCapability env .manageScoring
  ensure (p.errors = []) ⟨422, persianValidationMessage p.errors, none⟩
  if h : p.thresholds ≠ [] then
    pure
      (({ db with
          scoringSchemes := db.scoringSchemes.insert (newScheme p h (nextVersion db) user.id)
            (newScheme_id p h (nextVersion db) user.id) } : Database).log
        [directoryEvent env user "scoring_scheme_drafted"])
  else .error internalServerError

def activateScheme (db : Database) (env : Env) (user : CurrentUser) (schemeId : Nat) :
    Except HTTPException Database := do
  requireCapability env .manageScoring
  let scheme ← require (db.scoringSchemes.get? schemeId) schemeNotFound
  let activated ← activate db scheme user.id
  pure (activated.log [directoryEvent env user "scoring_scheme_activated"])

def deleteDraft (db : Database) (env : Env) (user : CurrentUser) (schemeId : Nat) :
    Except HTTPException Database := do
  requireCapability env .manageScoring
  let scheme ← require (db.scoringSchemes.get? schemeId) schemeNotFound
  ensure (scheme.status = .draft)
    ⟨400, "نسخهٔ فعال یا بازنشسته حذف نمی‌شود: پرونده‌های موجود به آن مهر خورده‌اند و " ++
      "بدون آن دیگر نمی‌شود گفت با چه قواعدی حساب شده‌اند", none⟩
  pure
    (({ db with scoringSchemes := db.scoringSchemes.filter fun other => other.id ≠ scheme.id } :
        Database).log [directoryEvent env user "scoring_scheme_draft_deleted"])

/-! ## Preview -/

/-- A finalized record as the proposed rules would have it. -/
structure ReclassifiedCase where
  evaluationCode : String
  orgUnit : String
  currentFinalPct : Rat
  proposedFinalPct : Rat
  currentRecommendation : String
  proposedRecommendation : String
  deriving DecidableEq

def ReclassifiedCase.changed (case : ReclassifiedCase) : Bool :=
  case.currentRecommendation ≠ case.proposedRecommendation

structure SchemePreview where
  sampleSize : Nat
  changedCount : Nat
  transitions : List ((String × String) × Nat)
  cases : List ReclassifiedCase
  deriving DecidableEq

def previewLimit : Int := 200

/-- The query of the preview. -/
def limitErrors (limit : Int) : List String :=
  if limit < 1 then boundError "limit" "1"
  else if previewLimit < limit then boundError "limit" (toString previewLimit)
  else []

def rulesFromInput (p : SchemeInput) (h : p.thresholds ≠ []) : Rules where
  generalSectionWeight := p.generalSectionWeight
  specializedSectionWeight := p.specializedSectionWeight
  evidenceRequiredScores := p.evidenceRequiredScores.map Int.toNat
  evidenceMinWords := p.evidenceMinWords.toNat
  evidenceMaxWords := p.evidenceMaxWords.toNat
  thresholds := p.thresholds
  thresholds_ne := h
  indicatorWeights := p.indicatorWeights
  bonusMaxPoints := p.bonusMaxPoints
  improvementPlanMaxPct := p.improvementPlanMaxPct

/-- A record without scores, or with a score of an indicator that is gone, has no case. -/
def caseOf (db : Database) (rules : Rules) (r : EvaluationRecord) (finalPct : Rat) :
    Option ReclassifiedCase :=
  if r.scores = [] ∨ r.scores.any (fun s => (db.indicators.get? s.indicatorId).isNone) = true then none
  else
    let proposed := computeResult r.scores db.indicators.rows rules (r.bonusPoints.getD 0)
    some
      { evaluationCode := r.evaluationCode
        orgUnit := ((db.personnel.get? r.subjectPersonnelId).map Personnel.orgUnit).getD "—"
        currentFinalPct := finalPct
        proposedFinalPct := proposed.finalWeightedPct
        currentRecommendation := (r.recommendation.filter (· ≠ "")).getD "—"
        proposedRecommendation := proposed.recommendation }

/-- The finalized records, the latest first. -/
def recentlyFinalized (db : Database) (limit : Nat) : List EvaluationRecord :=
  ((db.evaluationRecords.rows.filter fun r =>
    r.status = .finalized && r.finalWeightedPct.isSome).mergeSort fun r r' =>
      (r'.finalizedAt.getD 0) ≤ (r.finalizedAt.getD 0)).take limit

/-- How often each pair of labels occurs, the most frequent first. -/
def transitionsOf (cases : List ReclassifiedCase) : List ((String × String) × Nat) :=
  let pairs := (cases.filter ReclassifiedCase.changed).map fun case =>
    (case.currentRecommendation, case.proposedRecommendation)
  (pairs.eraseDups.map fun pair => (pair, pairs.count pair)).mergeSort fun a b => b.2 ≤ a.2

/-- The effect of proposed rules on finalized records. Nothing is written. -/
def previewScheme (db : Database) (env : Env) (p : SchemeInput) (limit : Int) :
    Except HTTPException SchemePreview := do
  requireCapability env .manageScoring
  let errors := limitErrors limit ++ p.errors
  ensure (errors = []) ⟨422, persianValidationMessage errors, none⟩
  if h : p.thresholds ≠ [] then
    let rules := rulesFromInput p h
    let cases := (recentlyFinalized db limit.toNat).filterMap fun r =>
      r.finalWeightedPct.bind fun finalPct => caseOf db rules r finalPct
    pure
      { sampleSize := cases.length
        changedCount := (cases.filter ReclassifiedCase.changed).length
        transitions := transitionsOf cases
        cases := cases.filter ReclassifiedCase.changed }
  else .error internalServerError

end NexaHR
