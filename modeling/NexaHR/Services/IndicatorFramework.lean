import NexaHR.Models.Database
import NexaHR.Services.Workflow
import Mathlib.Data.List.Sort

/-! # The indicator framework

`services/indicator_framework.py`: the versions of the form's membership, which version a record
asks, and how a new version reaches the records that nobody has written in.
-/

namespace NexaHR

open Foundations

set_option autoImplicit false

/-! ## Versions -/

def activeMemberIds (db : Database) : List Nat :=
  ((db.indicators.rows.filter Indicator.isActive).map Indicator.id).insertionSort (· ≤ ·)

def newerFramework (best : Option IndicatorFramework) (f : IndicatorFramework) :
    Option IndicatorFramework :=
  match best with
  | none => some f
  | some b => if b.version < f.version then some f else some b

def currentFramework (db : Database) : Option IndicatorFramework :=
  db.indicatorFrameworks.rows.foldl newerFramework none

/-- The version that `bump` adds. -/
def nextFramework (db : Database) (actorUserId : Option Nat) (changeKind : String)
    (changeNote : Option String) (id : Nat) : IndicatorFramework where
  id := id
  version := ((currentFramework db).map IndicatorFramework.version).getD 0 + 1
  memberIds := activeMemberIds db
  changeKind := changeKind
  changeNote := changeNote
  createdByUserId := actorUserId

theorem nextFramework_id (db : Database) (actorUserId : Option Nat) (changeKind : String)
    (changeNote : Option String) (id : Nat) :
    HasId.id (nextFramework db actorUserId changeKind changeNote id) = id := rfl

def bump (db : Database) (actorUserId : Option Nat) (changeKind : String)
    (changeNote : Option String) : IndicatorFramework × Database :=
  let framework := nextFramework db actorUserId changeKind changeNote
  (framework (db.indicatorFrameworks.seq + 1),
    { db with
      indicatorFrameworks :=
        db.indicatorFrameworks.insert framework
          (nextFramework_id db actorUserId changeKind changeNote) })

/-- The current version, after a first one or one of today's membership was added if needed. -/
def ensureFramework (db : Database) : IndicatorFramework × Database :=
  match currentFramework db with
  | some framework =>
    if framework.memberIds = activeMemberIds db then (framework, db) else bump db none "seed" none
  | none => bump db none "seed" none

/-! ## What a record asks -/

def indicatorIdsForRecord (db : Database) (r : EvaluationRecord) : List Nat :=
  match r.indicatorFrameworkId.bind db.indicatorFrameworks.get? with
  | some framework => framework.memberIds
  | none => activeMemberIds db

def indicatorsForRecord (db : Database) (r : EvaluationRecord) : List Indicator :=
  db.indicators.rows.filter fun i => i.id ∈ indicatorIdsForRecord db r

/-! ## Rebinding -/

namespace EvaluationRecord

/-- Nobody has written in the record: no score, no self-assessment. -/
def isUntouched (r : EvaluationRecord) : Bool :=
  r.scores = [] && r.selfAssessmentSubmittedAt.isNone

/-- `rebind_untouched_open_records` moves this record to the framework. -/
def isMovable (r : EvaluationRecord) (framework : IndicatorFramework) : Bool :=
  r.isOpen && r.indicatorFrameworkId.any (· ≠ framework.id) && r.isUntouched

def rebind (r : EvaluationRecord) (framework : IndicatorFramework) : EvaluationRecord :=
  if r.isMovable framework then { r with indicatorFrameworkId := some framework.id } else r

theorem rebind_id (r : EvaluationRecord) (framework : IndicatorFramework) :
    HasId.id (r.rebind framework) = HasId.id r := by
  unfold rebind
  split <;> rfl

end EvaluationRecord

def rebindUntouchedOpenRecords (db : Database) (framework : IndicatorFramework) : Database :=
  { db with
    evaluationRecords :=
      db.evaluationRecords.map (fun r => r.rebind framework) fun r => r.rebind_id framework }

/-- The impact that HR is shown before a change of membership: records kept and records moved. -/
def impactOfMembershipChange (db : Database) : Nat × Nat :=
  let openRecords := db.evaluationRecords.rows.filter EvaluationRecord.isOpen
  ((openRecords.filter fun r => !r.isUntouched).length,
    (openRecords.filter EvaluationRecord.isUntouched).length)

/-! ## Lookups of frameworks -/

theorem foldl_newerFramework_mem {rows : List IndicatorFramework} {best : Option IndicatorFramework}
    {f : IndicatorFramework} (h : rows.foldl newerFramework best = some f) :
    f ∈ rows ∨ best = some f := by
  induction rows generalizing best with
  | nil => exact Or.inr h
  | cons g rows ih =>
    rcases ih h with hm | hb
    · exact Or.inl (List.mem_cons_of_mem _ hm)
    · unfold newerFramework at hb
      split at hb
      · left
        cases hb
        exact List.mem_cons_self
      · split at hb
        · left
          cases hb
          exact List.mem_cons_self
        · exact Or.inr hb

theorem currentFramework_mem {db : Database} {f : IndicatorFramework}
    (h : currentFramework db = some f) : f ∈ db.indicatorFrameworks := by
  rcases foldl_newerFramework_mem h with hm | hb
  · exact hm
  · cases hb

/-- What `bump` returns is in the table it leaves. -/
theorem bump_get? (db : Database) (actorUserId : Option Nat) (changeKind : String)
    (changeNote : Option String) :
    (bump db actorUserId changeKind changeNote).2.indicatorFrameworks.get?
        (bump db actorUserId changeKind changeNote).1.id =
      some (bump db actorUserId changeKind changeNote).1 :=
  db.indicatorFrameworks.get?_insert_self _ (nextFramework_id db actorUserId changeKind changeNote)

/-- No version goes away. -/
theorem bump_keeps {db : Database} {actorUserId : Option Nat} {changeKind : String}
    {changeNote : Option String} {k : Nat} {f : IndicatorFramework}
    (h : db.indicatorFrameworks.get? k = some f) :
    (bump db actorUserId changeKind changeNote).2.indicatorFrameworks.get? k = some f :=
  Table.get?_insert_of_get? (nextFramework_id db actorUserId changeKind changeNote) h

/-- `ensure_framework` changes nothing but the table of frameworks, where no row goes away. -/
theorem ensureFramework_spec (db : Database) :
    (ensureFramework db).2 = { db with indicatorFrameworks := (ensureFramework db).2.indicatorFrameworks } ∧
      (ensureFramework db).2.indicatorFrameworks.get? (ensureFramework db).1.id =
        some (ensureFramework db).1 ∧
      ∀ k f, db.indicatorFrameworks.get? k = some f →
        (ensureFramework db).2.indicatorFrameworks.get? k = some f := by
  unfold ensureFramework
  split
  next f hf =>
    split
    · exact ⟨rfl, Table.get?_of_mem (currentFramework_mem hf), fun _ _ h => h⟩
    · exact ⟨rfl, bump_get? db _ _ _, fun _ _ h => bump_keeps h⟩
  next => exact ⟨rfl, bump_get? db _ _ _, fun _ _ h => bump_keeps h⟩

end NexaHR
