import NexaHR.Core.Numbers
import NexaHR.Foundations.Page
import NexaHR.Foundations.Tally
import NexaHR.Services.Workflow

/-! # Stage statistics

The figures of `services/stage_stats.py`: for each stage, how many records passed it, how many wait
there, for how long, and under whom. A visit that is over is read off the log of status changes, the
visit that is running off the record itself. Amounts of time are exact.

* `stageVisits`: the visits of one record, in the order of time.
* `countVisit`: the inner loop, on the buckets of the stages and of the owners.
* `stageStats`: the rows that the dashboard shows.
-/

namespace NexaHR

open Foundations

set_option autoImplicit false

/-! ## Stages and their owners -/

/-- A cancelled record is at no stage. -/
def stageOrder : List EvaluationStatus := [.draft, .submitted, .hrApproved, .deputyApproved, .finalized]

/-- Whom a stage waits for. -/
def stageHolder : EvaluationStatus → String
  | .draft => "مسئول واحد"
  | .submitted => "منابع انسانی"
  | .hrApproved => "معاونت"
  | .deputyApproved => "مدیرعامل"
  | .finalized | .cancelled => "—"

/-- The column with the owner of a stage. Two stages take it from the shape of the chain. -/
def ownerFieldFor (status : EvaluationStatus) (unitSupervisorUserId deputyUserId : Option Nat) :
    Option SeatField :=
  match status with
  | .draft => some (.chain (scorerField unitSupervisorUserId deputyUserId))
  | .hrApproved => some (.chain (if deputyUserId.isSome then .deputy else .ceo))
  | .submitted => some .hr
  | .deputyApproved => some (.chain .ceo)
  | .finalized | .cancelled => none

def EvaluationRecord.ownerAt (r : EvaluationRecord) (status : EvaluationStatus) : Option Nat :=
  (ownerFieldFor status r.chain.unitSupervisorUserId r.chain.deputyUserId).bind r.seat

/-! ## Visits -/

/-- A change of status in the log. -/
structure StageChange where
  time : Nat
  fromStatus : EvaluationStatus
  toStatus : EvaluationStatus
  deriving DecidableEq

/-- A stay of a record at one status. -/
structure StageVisit where
  status : EvaluationStatus
  seconds : Int
  isCurrent : Bool
  deriving DecidableEq

def closedVisits (entered : Nat) : List StageChange → List StageVisit
  | [] => []
  | change :: changes =>
    ⟨change.fromStatus, (change.time : Int) - entered, false⟩ :: closedVisits change.time changes

def stageVisits (createdAt : Nat) (currentStatus : EvaluationStatus) (stageEnteredAt : Nat)
    (changes : List StageChange) (now : Nat) : List StageVisit :=
  closedVisits createdAt changes ++ [⟨currentStatus, (now : Int) - stageEnteredAt, true⟩]

/-- A log row as a change of status. The row of a creation has no old status. -/
def AuditLog.stageChange (row : AuditLog) : Option StageChange :=
  match row.oldStatus, row.newStatus with
  | some fromStatus, some toStatus => some ⟨row.createdAt, fromStatus, toStatus⟩
  | _, _ => none

def stageChangesOf (db : Database) (recordId : Nat) : List StageChange :=
  (sortedBy AuditLog.createdAt (db.auditLog.filter fun row =>
    row.eventType = "status_changed" && row.evaluationRecordId = some recordId)).filterMap AuditLog.stageChange

/-- The records that were created in the window, of one period if it is given. -/
def stageScope (db : Database) (env : Env) (windowDays : Nat) (periodId : Option Nat) : List EvaluationRecord :=
  db.evaluationRecords.rows.filter fun r =>
    env.now ≤ r.createdAt + windowDays * 86400 && (periodId.isNone || r.periodId = periodId)

def visitsOf (db : Database) (env : Env) (r : EvaluationRecord) : List StageVisit :=
  stageVisits r.createdAt r.status r.stageEnteredAt (stageChangesOf db r.id) env.now

/-! ## Buckets -/

structure StageBucket where
  passes : Nat := 0
  active : Nat := 0
  closed : Nat := 0
  records : Finset Nat := ∅
  finishedSecondsTotal : Int := 0
  longestActiveSeconds : Int := 0
  deriving DecidableEq

namespace StageBucket

def count (b : StageBucket) (x : EvaluationRecord × StageVisit) : StageBucket where
  passes := b.passes + 1
  active := if x.2.isCurrent then b.active + 1 else b.active
  closed := if x.2.isCurrent then b.closed else b.closed + 1
  records := insert x.1.id b.records
  finishedSecondsTotal := if x.2.isCurrent then b.finishedSecondsTotal else b.finishedSecondsTotal + x.2.seconds
  longestActiveSeconds :=
    if x.2.isCurrent then max b.longestActiveSeconds x.2.seconds else b.longestActiveSeconds

/-- No visit that is over, no average. -/
def avgDays (b : StageBucket) : Option Rat :=
  if b.closed = 0 then none
  else some (roundTo 1 (max 0 ((b.finishedSecondsTotal : Rat) / b.closed) / 86400))

def longestActiveDays (b : StageBucket) : Option Rat :=
  if b.active = 0 then none else some (roundTo 1 ((b.longestActiveSeconds : Rat) / 86400))

end StageBucket

structure StageTally where
  buckets : List (EvaluationStatus × StageBucket)
  perOwner : List ((EvaluationStatus × Nat) × StageBucket)

def countVisit (t : StageTally) (x : EvaluationRecord × StageVisit) : StageTally :=
  if x.2.status ∈ stageOrder then
    { buckets := addTo StageBucket.count {} x.2.status x t.buckets
      perOwner :=
        match x.1.ownerAt x.2.status with
        | none => t.perOwner
        | some ownerId => addTo StageBucket.count {} (x.2.status, ownerId) x t.perOwner }
  else t

/-- The visits of all records, in the order of the loop. -/
def scopeVisits (db : Database) (env : Env) (records : List EvaluationRecord) :
    List (EvaluationRecord × StageVisit) :=
  records.flatMap fun r => (visitsOf db env r).map fun visit => (r, visit)

def stageTally (db : Database) (env : Env) (records : List EvaluationRecord) : StageTally :=
  (scopeVisits db env records).foldl countVisit ⟨stageOrder.map fun status => (status, {}), []⟩

/-! ## Rows -/

structure OwnerRow where
  name : String
  total : Nat
  active : Nat
  closed : Nat
  avgDwellDays : Option Rat
  longestActiveDays : Option Rat
  deriving DecidableEq

structure StageRow where
  status : EvaluationStatus
  holder : String
  total : Nat := 0
  active : Nat := 0
  closed : Nat := 0
  passes : Nat := 0
  sharePct : Rat := 0
  avgDwellDays : Option Rat := none
  longestActiveDays : Option Rat := none
  byOwner : List OwnerRow := []
  deriving DecidableEq

def finishOwner (name : String) (b : StageBucket) : OwnerRow where
  name := name
  total := b.records.card
  active := b.active
  closed := b.closed
  avgDwellDays := b.avgDays
  longestActiveDays := b.longestActiveDays

def ownerName (db : Database) (ownerId : Nat) : String :=
  ((db.users.get? ownerId).map fun u => (Database.givenName u.fullName).getD u.username).getD "—"

/-- The owners of a stage, those with the most work first. -/
def ownersOf (db : Database) (perOwner : List ((EvaluationStatus × Nat) × StageBucket)) (status : EvaluationStatus) :
    List OwnerRow :=
  ((perOwner.filter fun group => group.1.1 = status).map fun group =>
      finishOwner (ownerName db group.1.2) group.2).insertionSort
    fun a b => b.active < a.active ∨ (a.active = b.active ∧ b.total ≤ a.total)

def stageRow (db : Database) (t : StageTally) (totalRecords : Nat) (status : EvaluationStatus) : StageRow :=
  let bucket := groupOf {} status t.buckets
  { status := status
    holder := stageHolder status
    total := bucket.records.card
    active := bucket.active
    closed := bucket.closed
    passes := bucket.passes
    sharePct := roundTo 1 ((bucket.records.card * 100 : Nat) / (totalRecords : Rat))
    avgDwellDays := if status = .finalized then none else bucket.avgDays
    longestActiveDays := if status = .finalized then none else bucket.longestActiveDays
    byOwner := ownersOf db t.perOwner status }

def stageStats (db : Database) (env : Env) (windowDays : Nat) (periodId : Option Nat) : List StageRow :=
  let records := stageScope db env windowDays periodId
  if records.isEmpty then stageOrder.map fun status => { status := status, holder := stageHolder status }
  else stageOrder.map (stageRow db (stageTally db env records) records.length)

end NexaHR
