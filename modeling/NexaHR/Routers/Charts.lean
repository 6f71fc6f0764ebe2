import NexaHR.Routers.Analytics
import NexaHR.Routers.Form
import NexaHR.Routers.People
import NexaHR.Routers.Reading

/-! # The charts of a person

The radar and the trend from `api/routers/dashboard.py`, and the comparison with the unit from
`api/routers/reports.py`. Moments are sent as they are stored.

* `personnelRadar`: the average score of each category.
* `personnelTrend`: the final percentages in the order of time.
* `employeeVsUnit`: the person's average beside the unit's, for HR.
-/

namespace NexaHR

open Foundations

set_option autoImplicit false

def finalizedOf (db : Database) (personnelId : Nat) : List EvaluationRecord :=
  db.evaluationRecords.rows.filter fun r => r.status = .finalized && r.subjectPersonnelId = personnelId

def chartForbidden : HTTPException := ⟨403, "دسترسی مجاز نیست", none⟩

/-! ## The radar -/

structure RadarPoint where
  category : String
  avgScore : Rat
  deriving DecidableEq

/-- The scores of a record, joined to their indicators. -/
def scoreRows (db : Database) (r : EvaluationRecord) : List (String × Nat) :=
  r.scores.filterMap fun s => (db.indicators.get? s.indicatorId).map fun i => (i.category, s.score)

/-- One point for each category, with the average of its scores. -/
def radarPoints (rows : List (String × Nat)) : List RadarPoint :=
  (rows.map Prod.fst).dedup.map fun category =>
    let scores := (rows.filter fun row => row.1 = category).map fun row => (row.2 : Rat)
    ⟨category, roundTo 2 (scores.sum / scores.length)⟩

def personnelRadar (db : Database) (env : Env) (user : CurrentUser) (personnelId : Nat) :
    Except HTTPException (List RadarPoint) := do
  ensure (canViewPersonnel db env personnelId user = true) chartForbidden
  pure (radarPoints ((finalizedOf db personnelId).flatMap (scoreRows db)))

/-! ## The trend -/

structure TrendPoint where
  evaluationCode : String
  finalizedAt : Nat
  finalWeightedPct : Rat
  deriving DecidableEq

/-- Without a percentage `float` fails. -/
def trendPoint (row : EvaluationRecord × Nat) : Except HTTPException TrendPoint := do
  let pct ← require row.1.finalWeightedPct internalServerError
  pure ⟨row.1.evaluationCode, row.2, pct⟩

/-- The records with the time of their end, the oldest first. -/
def trendRows (records : List EvaluationRecord) : List (EvaluationRecord × Nat) :=
  sortedBy Prod.snd (records.filterMap fun r => r.finalizedAt.map fun finalizedAt => (r, finalizedAt))

def personnelTrend (db : Database) (env : Env) (user : CurrentUser) (personnelId : Nat) :
    Except HTTPException (List TrendPoint) := do
  ensure (canViewPersonnel db env personnelId user = true) chartForbidden
  (trendRows (finalizedOf db personnelId)).mapM trendPoint

/-! ## Beside the unit -/

structure EmployeeEvaluationPoint where
  evaluationCode : String
  finalizedAt : Option Nat
  finalWeightedPct : Rat
  deriving DecidableEq

structure EmployeeVsUnit where
  personnelId : Nat
  fullName : String
  orgUnit : String
  employeeAvg : Option Rat
  unitAvg : Option Rat
  evaluationCount : Nat
  unitEvaluationCount : Nat
  perEvaluation : List EmployeeEvaluationPoint
  deriving DecidableEq

structure ComparisonRange where
  periodId : Option Nat := none
  createdFrom : Option Nat := none
  createdTo : Option Nat := none

/-- `_range`. -/
def ComparisonRange.admits (range : ComparisonRange) (backend : Backend) (r : EvaluationRecord) : Bool :=
  range.periodId.all (fun periodId => r.periodId = some periodId) &&
    range.createdFrom.all (fun day => backend.localDayStart day ≤ r.createdAt) &&
    range.createdTo.all (fun day => r.createdAt < backend.localDayEnd day)

/-- The order of `finalized_at`, where an empty column comes last. -/
def finalizedBefore : Option Nat → Option Nat → Bool
  | some a, some b => a ≤ b
  | some _, none => true
  | none, some _ => false
  | none, none => true

def evaluationPoint (r : EvaluationRecord) : Option EmployeeEvaluationPoint :=
  r.finalWeightedPct.map fun pct => ⟨r.evaluationCode, r.finalizedAt, pct⟩

/-- The record with its percentage, if it is about somebody of the unit. -/
def unitPct (db : Database) (orgUnit : String) (r : EvaluationRecord) : Option (Nat × Rat) :=
  if (db.personnel.get? r.subjectPersonnelId).any fun person => person.orgUnit = orgUnit then
    r.finalWeightedPct.map fun pct => (r.subjectPersonnelId, pct)
  else none

def employeeVsUnit (backend : Backend) (db : Database) (user : CurrentUser) (personnelId : Nat)
    (range : ComparisonRange) : Except HTTPException EmployeeVsUnit := do
  requireRoles user [.hr]
  let personnel ← require (db.personnel.get? personnelId) personnelNotFound
  let finalized := db.evaluationRecords.rows.filter fun r =>
    r.status = .finalized && range.admits backend r
  let own := (finalized.filter fun r => r.subjectPersonnelId = personnelId).insertionSort fun a b =>
    finalizedBefore a.finalizedAt b.finalizedAt = true
  let perEvaluation := own.filterMap evaluationPoint
  let unitRows := finalized.filterMap (unitPct db personnel.orgUnit)
  pure
    { personnelId := personnel.id
      fullName := personnel.fullName
      orgUnit := personnel.orgUnit
      employeeAvg :=
        (averageOf (perEvaluation.map EmployeeEvaluationPoint.finalWeightedPct)).map (roundTo 1)
      unitAvg :=
        suppressedAvg backend.minCohortSize ((averageOf (unitRows.map Prod.snd)).map (roundTo 1))
          (unitRows.map Prod.fst).dedup.length
      evaluationCount := perEvaluation.length
      unitEvaluationCount := unitRows.length
      perEvaluation := perEvaluation }

end NexaHR
