import NexaHR.Foundations.ThreeValued
import NexaHR.Routers.Analytics

/-! # The scorer's mirror

`my_scoring_profile` of `api/routers/analytics.py`: a scorer's own scores beside those of the others. Whose a
row is, is a condition of a query over seats that may be empty.

* `mine`: that condition.
* `myScores`, `otherScores`: the rows that it and its negation keep.
* `myScoringProfile`: the figures over both.
-/

namespace NexaHR

open Foundations

set_option autoImplicit false

/-! ## The two sides -/

/-- A score of a finalized record, joined to the record. -/
structure ScoreRow where
  record : EvaluationRecord
  score : EvaluationScore

def finalizedScores (db : Database) : List ScoreRow :=
  (db.evaluationRecords.rows.filter fun r => r.status = .finalized).flatMap fun r =>
    r.scores.map fun s => ⟨r, s⟩

/-- The user scored the record: he sits in the lowest seat, or as a deputy above an empty one. -/
def mine (user : CurrentUser) (r : EvaluationRecord) : Truth :=
  if user.role = .deputy then
    (equals r.chain.unitSupervisorUserId user.id).or
      ((isNull r.chain.unitSupervisorUserId).and (equals r.chain.deputyUserId user.id))
  else equals r.chain.unitSupervisorUserId user.id

def myScores (db : Database) (user : CurrentUser) : List ScoreRow :=
  (finalizedScores db).filter fun row => (mine user row.record).holds

def otherScores (db : Database) (user : CurrentUser) : List ScoreRow :=
  (finalizedScores db).filter fun row => (mine user row.record).not.holds

/-! ## Figures -/

def avgScore (rows : List ScoreRow) : Option Rat :=
  (averageOf (rows.map fun row => (row.score.score : Rat))).map (roundTo 2)

def peopleBehind (rows : List ScoreRow) : Nat :=
  (rows.map fun row => row.record.subjectPersonnelId).dedup.length

def countOfScore (rows : List ScoreRow) (value : Nat) : Nat :=
  rows.countP fun row => row.score.score = value

def rowsOfIndicator (rows : List ScoreRow) (indicatorId : Nat) : List ScoreRow :=
  rows.filter fun row => row.score.indicatorId = indicatorId

/-- `round(part * 100 / whole, 1)`. -/
def sharePct (part whole : Nat) : Rat := roundTo 1 ((part * 100 : Nat) / (whole : Rat))

structure ScoreDistributionBucket where
  score : Nat
  myCount : Nat
  mySharePct : Rat
  orgSharePct : Option Rat
  deriving DecidableEq

def distributionBucket (minCohortSize : CohortSize) (mine others : List ScoreRow) (value : Nat) :
    ScoreDistributionBucket where
  score := value
  myCount := countOfScore mine value
  mySharePct := if mine.isEmpty then 0 else sharePct (countOfScore mine value) mine.length
  orgSharePct :=
    if others.isEmpty || isBelowCohort minCohortSize (peopleBehind others) then none
    else some (sharePct (countOfScore others value) others.length)

structure IndicatorGap where
  indicatorId : Nat
  category : String
  description : String
  myAvg : Option Rat
  orgAvg : Option Rat
  myCount : Nat
  deriving DecidableEq

/-- An indicator that the user has never scored has no gap. -/
def indicatorGap (minCohortSize : CohortSize) (mine others : List ScoreRow) (i : Indicator) :
    Option IndicatorGap :=
  let mine := rowsOfIndicator mine i.id
  let others := rowsOfIndicator others i.id
  if mine.isEmpty then none
  else
    some
      { indicatorId := i.id
        category := i.category
        description := i.description
        myAvg := avgScore mine
        orgAvg := suppressedAvg minCohortSize (avgScore others) (peopleBehind others)
        myCount := mine.length }

def IndicatorGap.deviation (gap : IndicatorGap) : Rat :=
  match gap.orgAvg with
  | some orgAvg => |gap.myAvg.getD 0 - orgAvg|
  | none => -1

/-- The order of the form: by section, then by place. -/
def inFormOrder (indicators : List Indicator) : List Indicator :=
  let rank := fun (i : Indicator) => if i.section = .general then 0 else 1
  indicators.insertionSort fun i j =>
    rank i < rank j ∨ rank i = rank j ∧ i.displayOrder ≤ j.displayOrder

/-- The widest deviation first. -/
def indicatorGaps (minCohortSize : CohortSize) (db : Database) (mine others : List ScoreRow) :
    List IndicatorGap :=
  ((inFormOrder db.indicators.rows).filterMap (indicatorGap minCohortSize mine others)).insertionSort
    fun a b => b.deviation ≤ a.deviation

/-- `trim` of a query takes blanks off both ends. -/
def sqlTrim (s : String) : String :=
  String.ofList (((s.toList.dropWhile (· = ' ')).reverse.dropWhile (· = ' ')).reverse)

def hasEvidence (row : ScoreRow) : Truth :=
  (isNull row.score.evidenceText).not.and (equals (row.score.evidenceText.map sqlTrim) "").not

/-- `percentile_cont(0.5)`. -/
def medianOf (values : List Rat) : Option Rat :=
  let sorted := values.insertionSort (· ≤ ·)
  if values.isEmpty then none
  else some ((sorted.getD ((values.length - 1) / 2) 0 + sorted.getD (values.length / 2) 0) / 2)

def draftsOf (db : Database) (user : CurrentUser) : List EvaluationRecord :=
  db.evaluationRecords.rows.filter fun r => r.isOpen && (mine user r).holds && r.status = .draft

def daysWaiting (env : Env) (r : EvaluationRecord) : Rat := ((env.now : Rat) - r.stageEnteredAt) / 86400

/-! ## The endpoint -/

structure MyScoringProfile where
  myScoreCount : Nat
  myAvgScore : Option Rat
  orgAvgScore : Option Rat
  orgPeopleCount : Nat
  distribution : List ScoreDistributionBucket
  indicatorGaps : List IndicatorGap
  evidenceRatePct : Option Rat
  medianDaysInMyStage : Option Rat
  openWithMe : Nat
  deriving DecidableEq

def myScoringProfile (minCohortSize : CohortSize) (db : Database) (env : Env) (user : CurrentUser) :
    Except HTTPException MyScoringProfile := do
  requireRoles user [.unitSupervisor, .deputy]
  ensureModuleEnabled env .roleAnalytics
  let mine := myScores db user
  let others := otherScores db user
  let withEvidence := mine.filter fun row => (hasEvidence row).holds
  pure
    { myScoreCount := mine.length
      myAvgScore := avgScore mine
      orgAvgScore := suppressedAvg minCohortSize (avgScore others) (peopleBehind others)
      orgPeopleCount := peopleBehind others
      distribution := [1, 2, 3, 4, 5].map (distributionBucket minCohortSize mine others)
      indicatorGaps := indicatorGaps minCohortSize db mine others
      evidenceRatePct := if mine.isEmpty then none else some (sharePct withEvidence.length mine.length)
      medianDaysInMyStage := (medianOf ((draftsOf db user).map (daysWaiting env))).map (roundTo 1)
      openWithMe := (draftsOf db user).length }

end NexaHR
