import NexaHR.Routers.Views

/-! # The executive's view

`executive_overview` of `api/routers/analytics.py`, with the suppression of small groups from
`services/privacy.py`: the totals and the units. The sites, the recommendations, the cycle times and the
contracts are left out.

* `peopleOf`: how many persons a figure of a unit is about.
* `suppressedAvg`: no average for a group below the threshold.
* `byOrgUnit`: the units with an average, the best first.
-/

namespace NexaHR

open Foundations

set_option autoImplicit false

/-! ## Suppression -/

/-- The setting `min_cohort_size`. -/
abbrev CohortSize : Type := Nat

def isBelowCohort (minCohortSize : CohortSize) (count : Nat) : Bool := count < minCohortSize

def suppressedAvg (minCohortSize : CohortSize) (value : Option Rat) (count : Nat) : Option Rat :=
  if value.isNone || isBelowCohort minCohortSize count then none else value

/-! ## Units -/

structure UnitPerformance where
  orgUnit : String
  avgFinalPct : Option Rat
  count : Nat
  deriving DecidableEq

/-- A finalized record with a percentage, joined to its person: the unit, the person and the percentage. -/
structure EvaluatedRow where
  orgUnit : String
  personnelId : Nat
  finalWeightedPct : Rat
  deriving DecidableEq

def evaluatedRow (db : Database) (r : EvaluationRecord) : Option EvaluatedRow :=
  if r.status = .finalized then
    match db.personnel.get? r.subjectPersonnelId, r.finalWeightedPct with
    | some person, some pct => some ⟨person.orgUnit, r.subjectPersonnelId, pct⟩
    | _, _ => none
  else none

def evaluatedRows (db : Database) : List EvaluatedRow := db.evaluationRecords.rows.filterMap (evaluatedRow db)

def rowsOfUnit (db : Database) (unit : String) : List EvaluatedRow :=
  (evaluatedRows db).filter fun row => row.orgUnit = unit

def unitAvg (db : Database) (unit : String) : Option Rat :=
  averageOf ((rowsOfUnit db unit).map EvaluatedRow.finalWeightedPct)

/-- `cohort_size`: persons are counted, not records. -/
def peopleOf (db : Database) (unit : String) : Nat :=
  ((rowsOfUnit db unit).map EvaluatedRow.personnelId).dedup.length

def listedUnits (db : Database) : List String := ((evaluatedRows db).map EvaluatedRow.orgUnit).dedup

/-- The groups in the order of their averages, the highest first. -/
def sortedUnits (db : Database) : List String :=
  (listedUnits db).insertionSort fun a b => (unitAvg db b).getD 0 ≤ (unitAvg db a).getD 0

def unitPerformance (minCohortSize : CohortSize) (db : Database) (unit : String) : UnitPerformance where
  orgUnit := unit
  avgFinalPct := suppressedAvg minCohortSize ((unitAvg db unit).map (roundTo 1)) (peopleOf db unit)
  count := (rowsOfUnit db unit).length

def byOrgUnit (minCohortSize : CohortSize) (db : Database) : List UnitPerformance :=
  (sortedUnits db).map (unitPerformance minCohortSize db)

/-! ## The endpoint -/

structure ExecutiveOverview where
  totalFinalized : Nat
  avgFinalPct : Option Rat
  byOrgUnit : List UnitPerformance
  deriving DecidableEq

def executiveOverview (minCohortSize : CohortSize) (db : Database) (env : Env) (user : CurrentUser) :
    Except HTTPException ExecutiveOverview := do
  requireRoles user [.ceo, .deputy]
  ensureModuleEnabled env .roleAnalytics
  let finalized := db.evaluationRecords.rows.filter fun r => r.status = .finalized
  let people := (finalized.map EvaluationRecord.subjectPersonnelId).dedup.length
  pure
    { totalFinalized := finalized.length
      avgFinalPct := suppressedAvg minCohortSize
        ((averageOf (finalized.filterMap EvaluationRecord.finalWeightedPct)).map (roundTo 1)) people
      byOrgUnit := byOrgUnit minCohortSize db }

end NexaHR
