import NexaHR.Services.SelfEvaluation
import Mathlib.Data.List.Infix

/-! # The migrations of the review stages

The two revisions under `alembic/versions` that move records which are under way: one gives the manager
path its HR stage, the later one takes the HR stage from the members of the HR unit.

* `ManagerPathHrReview.upgrade`: revision `a7f3c9b52d18`.
* `HrSubjectSkipsHrReview.upgrade`: revision `a7d3e0c194bf`.
* `upgradeReviewStages`: the two in their order.
-/

namespace NexaHR

open Foundations

set_option autoImplicit false

/-! ## The manager path -/

namespace ManagerPathHrReview

/-- A row after `_MOVE` from `hr_approved` to `draft`. -/
def move (now : Nat) (r : EvaluationRecord) : EvaluationRecord :=
  if r.status = .hrApproved ∧ r.chain.unitSupervisorUserId = none then
    { r with
      status := .draft
      stageEnteredAt := now }
  else r

theorem move_id (now : Nat) (r : EvaluationRecord) : HasId.id (move now r) = HasId.id r := by
  unfold move
  split <;> rfl

def upgrade (now : Nat) (db : Database) : Database :=
  { db with evaluationRecords := db.evaluationRecords.map (move now) (move_id now) }

theorem mem_upgrade {now : Nat} {db : Database} {r' : EvaluationRecord} :
    r' ∈ (upgrade now db).evaluationRecords ↔ ∃ r ∈ db.evaluationRecords, move now r = r' :=
  @Table.mem_map _ _ db.evaluationRecords (move now) (move_id now) r'

end ManagerPathHrReview

/-! ## The HR unit -/

namespace HrSubjectSkipsHrReview

/-- `LIKE '%منابع انسانی%'`. -/
def namedAsHr (name : String) : Bool := decide ("منابع انسانی".toList <:+: name.toList)

/-- A row of the catalogue with its new column `is_hr_unit`. -/
def flagged (unit : OrgUnit) : OrgUnit := { unit with isHrUnit := namedAsHr unit.name }

/-- The text that stands for the unit in `personnel.org_unit`. -/
def joinedName (unit : OrgUnit) : String :=
  match unit.site with
  | some site => if site = "" then unit.name else site ++ " / " ++ unit.name
  | none => unit.name

/-- The subject works in a unit with the flag. -/
def subjectInHrUnit (db : Database) (personnelId : Nat) : Bool :=
  db.personnel.rows.any fun p => db.orgUnits.rows.any fun o =>
    p.orgUnit = joinedName o && p.id = personnelId && o.isHrUnit

/-- A row with its new column `hr_review_skipped`. -/
def stamped (db : Database) (r : EvaluationRecord) : EvaluationRecord :=
  { r with hrReviewSkipped := subjectInHrUnit db r.subjectPersonnelId }

theorem stamped_id (db : Database) (r : EvaluationRecord) : HasId.id (stamped db r) = HasId.id r := rfl

def flagUnits (db : Database) : Database :=
  { db with orgUnits := db.orgUnits.map flagged fun _ => rfl }

def upgrade (db : Database) : Database :=
  { flagUnits db with
    evaluationRecords :=
      (flagUnits db).evaluationRecords.map (stamped (flagUnits db)) (stamped_id (flagUnits db)) }

theorem mem_upgrade {db : Database} {r' : EvaluationRecord} :
    r' ∈ (upgrade db).evaluationRecords ↔
      ∃ r ∈ db.evaluationRecords, stamped (flagUnits db) r = r' :=
  @Table.mem_map _ _ db.evaluationRecords (stamped (flagUnits db)) (stamped_id (flagUnits db)) r'

/-! ### The stamp is the one of the creation -/

/-- A name with the flag is not empty, so the catalogue joins it as the query does. -/
theorem joinedName_eq {unit : OrgUnit} (hstored : unit.Stripped) (h : namedAsHr unit.name = true) :
    joinedName unit = unit.fullName := by
  have hname : unit.name ≠ "" := by
    intro hempty
    rw [hempty] at h
    exact absurd h (by decide)
  unfold joinedName OrgUnit.fullName joinSite
  rw [hstored.name]
  cases hsite : unit.site with
  | none => simp
  | some site =>
    rw [Option.getD_some, hstored.site site hsite]
    by_cases hblank : site = ""
    · simp [hblank]
    · simp [hblank, hname, canonicalSeparator]

/-- The migration stamps a record as its creation would on the migrated database. -/
theorem subjectInHrUnit_eq {db : Database} (hstored : ∀ unit ∈ db.orgUnits, unit.Stripped) (personnelId : Nat) :
    subjectInHrUnit (flagUnits db) personnelId = subjectBelongsToHr (upgrade db) personnelId := by
  have hunit : ∀ o ∈ (flagUnits db).orgUnits.rows, o.isHrUnit = true → joinedName o = o.fullName := by
    intro o ho hflag
    obtain ⟨unit, hunit, rfl⟩ := List.mem_map.mp ho
    obtain ⟨hname, hsite⟩ := hstored unit hunit
    exact joinedName_eq ⟨hname, hsite⟩ hflag
  rw [Bool.eq_iff_iff]
  unfold subjectInHrUnit subjectBelongsToHr
  simp only [List.any_eq_true, Bool.and_eq_true, decide_eq_true_eq]
  constructor
  · rintro ⟨p, hp, o, ho, ⟨hname, hid⟩, hflag⟩
    have hget : (upgrade db).personnel.get? personnelId = some p := by
      rw [← hid]
      exact Table.get?_of_mem (show p ∈ db.personnel from hp)
    rw [hget]
    simp only [decide_eq_true_eq, List.mem_map, List.mem_filter]
    exact ⟨o, ⟨ho, hflag⟩, by rw [hname, hunit o ho hflag]⟩
  · intro h
    cases hget : (upgrade db).personnel.get? personnelId with
    | none =>
      rw [hget] at h
      cases h
    | some p =>
      rw [hget] at h
      simp only [decide_eq_true_eq, List.mem_map, List.mem_filter] at h
      obtain ⟨o, ⟨ho, hflag⟩, hname⟩ := h
      have hp : p ∈ db.personnel := Table.mem_of_get? hget
      exact ⟨p, hp, o, ho, ⟨by rw [← hname, hunit o ho hflag], Table.id_of_get? hget⟩, hflag⟩

end HrSubjectSkipsHrReview

/-! ## Both -/

def upgradeReviewStages (now : Nat) (db : Database) : Database :=
  HrSubjectSkipsHrReview.upgrade (ManagerPathHrReview.upgrade now db)

/-- What both make of a record. -/
theorem mem_upgradeReviewStages {now : Nat} {db : Database} {r' : EvaluationRecord} :
    r' ∈ (upgradeReviewStages now db).evaluationRecords ↔ ∃ r ∈ db.evaluationRecords,
      HrSubjectSkipsHrReview.stamped (HrSubjectSkipsHrReview.flagUnits db)
        (ManagerPathHrReview.move now r) = r' := by
  unfold upgradeReviewStages
  rw [HrSubjectSkipsHrReview.mem_upgrade]
  constructor
  · rintro ⟨r₁, hr₁, rfl⟩
    obtain ⟨r, hr, rfl⟩ := ManagerPathHrReview.mem_upgrade.mp hr₁
    exact ⟨r, hr, rfl⟩
  · rintro ⟨r, hr, rfl⟩
    exact ⟨_, ManagerPathHrReview.mem_upgrade.mpr ⟨r, hr, rfl⟩, rfl⟩

end NexaHR
