import NexaHR.Migrations.ReviewStages
import NexaHR.Properties.Progress
import NexaHR.System.Installation

/-! # The upgrade of the review stages

A record that is under way when the review stages change keeps a way on, unless it lies in the HR queue
at that moment and its subject works in a unit that is named as the HR unit.

* `HasForward`, `Advancing`: what the table alone offers a record.
* `hasForward_iff`: where the table offers nothing.
* `upgrade_advances_iff`: when the upgrade leaves nobody behind.
-/

namespace NexaHR

open Foundations HrSubjectSkipsHrReview

set_option autoImplicit false

/-! ## What the table offers -/

/-- A forward transition of the table whose status and guard hold. -/
def HasForward (r : EvaluationRecord) : Prop :=
  ∃ a : Action, a.isForward = true ∧ r.status ∈ (transitions a).fromStatuses ∧
    (transitions a).guard r = true

/-- Every open record has a way on. -/
def Advancing (db : Database) : Prop :=
  ∀ r ∈ db.evaluationRecords, r.isOpen = true → HasForward r

/-- Beside the HR queue of a record that HR does not review, every shape has a way on from every open
status. -/
theorem exists_enabled {s : Shape} {status : EvaluationStatus} (hopen : status ∈ openStatuses)
    (hqueue : status = .submitted → s.hrReviewSkipped = false) :
    ∃ a : Action, a.isForward = true ∧ s.enabled status a = true := by
  have hall : ∀ s ∈ Shape.all, ∀ status ∈ openStatuses,
      (status = .submitted → s.hrReviewSkipped = false) →
      ∃ a ∈ Action.all, a.isForward = true ∧ s.enabled status a = true := by
    decide
  obtain ⟨a, -, ha⟩ := hall s s.mem_all status hopen hqueue
  exact ⟨a, ha⟩

/-- In the HR queue of a record that HR does not review, no guard holds. -/
theorem skipped_queue {s : Shape} {a : Action} (hskip : s.hrReviewSkipped = true)
    (hforward : a.isForward = true) (hfrom : EvaluationStatus.submitted ∈ (transitions a).fromStatuses) :
    s.guardAt .submitted a = false := by
  have hall : ∀ s ∈ Shape.all, ∀ a ∈ Action.all, s.hrReviewSkipped = true → a.isForward = true →
      EvaluationStatus.submitted ∈ (transitions a).fromStatuses → s.guardAt .submitted a = false := by
    decide
  exact hall s s.mem_all a a.mem_all hskip hforward hfrom

theorem canAdvance_of_queue {r : EvaluationRecord} (hopen : r.isOpen = true)
    (hqueue : r.status = .submitted → r.hrReviewSkipped = false) : CanAdvance r := by
  have hstatus : r.status ∈ openStatuses := of_decide_eq_true hopen
  obtain ⟨a, hforward, henabled⟩ := @exists_enabled r.shape r.status hstatus hqueue
  exact canAdvance_of_enabled hforward henabled

theorem hasForward_of_canAdvance {r : EvaluationRecord} (h : CanAdvance r) : HasForward r := by
  obtain ⟨a, hforward, hfrom, hguard, -⟩ := h
  exact ⟨a, hforward, hfrom, hguard⟩

theorem hasForward_iff {r : EvaluationRecord} (hopen : r.isOpen = true) :
    HasForward r ↔ (r.status = .submitted → r.hrReviewSkipped = false) := by
  constructor
  · rintro ⟨a, hforward, hfrom, hguard⟩ hsubmitted
    by_contra hskip
    rw [Bool.not_eq_false] at hskip
    rw [guard_eq_guardAt, hsubmitted] at hguard
    rw [hsubmitted] at hfrom
    rw [@skipped_queue r.shape a hskip hforward hfrom] at hguard
    cases hguard
  · intro hqueue
    exact hasForward_of_canAdvance (canAdvance_of_queue hopen hqueue)

/-! ## One record -/

/-- The manager path brings nobody into the HR queue and takes nobody out of it. -/
theorem move_submitted {now : Nat} {r : EvaluationRecord} :
    (ManagerPathHrReview.move now r).status = .submitted ↔ r.status = .submitted := by
  unfold ManagerPathHrReview.move
  split
  next h =>
    rw [h.1]
    show EvaluationStatus.draft = .submitted ↔ EvaluationStatus.hrApproved = .submitted
    decide
  next => rfl

theorem move_keeps (now : Nat) (r : EvaluationRecord) :
    (ManagerPathHrReview.move now r).isOpen = r.isOpen ∧
      (ManagerPathHrReview.move now r).subjectPersonnelId = r.subjectPersonnelId ∧
      (ManagerPathHrReview.move now r).hrReviewSkipped = r.hrReviewSkipped := by
  unfold ManagerPathHrReview.move
  split
  next h =>
    refine ⟨?_, rfl, rfl⟩
    unfold EvaluationRecord.isOpen
    rw [h.1]
    rfl
  next => exact ⟨rfl, rfl, rfl⟩

/-- A person works in a unit of that name. -/
def WorksInHr (db : Database) (personnelId : Nat) : Prop :=
  ∃ p ∈ db.personnel, p.id = personnelId ∧
    ∃ unit ∈ db.orgUnits, namedAsHr unit.name = true ∧ p.orgUnit = joinedName unit

theorem subjectInHrUnit_iff {db : Database} {personnelId : Nat} :
    subjectInHrUnit (flagUnits db) personnelId = true ↔ WorksInHr db personnelId := by
  unfold subjectInHrUnit WorksInHr
  simp only [List.any_eq_true, Bool.and_eq_true, decide_eq_true_eq]
  constructor
  · rintro ⟨p, hp, o, ho, ⟨hname, hid⟩, hflag⟩
    obtain ⟨unit, hunit, rfl⟩ := List.mem_map.mp ho
    exact ⟨p, hp, hid, unit, hunit, hflag, hname⟩
  · rintro ⟨p, hp, hid, unit, hunit, hflag, hname⟩
    exact ⟨p, hp, flagged unit, List.mem_map.mpr ⟨unit, hunit, rfl⟩, ⟨hname, hid⟩, hflag⟩

theorem hasForward_upgraded {now : Nat} {db : Database} {r : EvaluationRecord} (hopen : r.isOpen = true) :
    HasForward (stamped (flagUnits db) (ManagerPathHrReview.move now r)) ↔
      (r.status = .submitted → ¬WorksInHr db r.subjectPersonnelId) := by
  obtain ⟨hisOpen, hsubject, -⟩ := move_keeps now r
  have hopen' : (stamped (flagUnits db) (ManagerPathHrReview.move now r)).isOpen = true :=
    hisOpen.trans hopen
  rw [hasForward_iff hopen', ← subjectInHrUnit_iff, Bool.not_eq_true]
  show ((ManagerPathHrReview.move now r).status = .submitted →
    subjectInHrUnit (flagUnits db) (ManagerPathHrReview.move now r).subjectPersonnelId = false) ↔ _
  rw [move_submitted, hsubject]

/-! ## The result -/

/-- No record lies in the HR queue whose subject works in a unit that is named as the HR unit. -/
def NoneWaitsForHr (db : Database) : Prop :=
  ∀ r ∈ db.evaluationRecords, r.status = .submitted → ¬WorksInHr db r.subjectPersonnelId

/-- Before the column is there every open record has a way on. The manager path keeps it; after both
migrations every open record has one exactly when nobody who works in a unit named as the HR unit waited
for HR, and then somebody is there to take it. -/
theorem upgrade_advances_iff (now : Nat) (db : Database) :
    ((∀ r ∈ db.evaluationRecords, r.hrReviewSkipped = false) →
      Advancing db ∧ Advancing (ManagerPathHrReview.upgrade now db)) ∧
    (Advancing (upgradeReviewStages now db) ↔ NoneWaitsForHr db) ∧
    (NoneWaitsForHr db →
      ∀ r ∈ (upgradeReviewStages now db).evaluationRecords, r.isOpen = true → CanAdvance r) := by
  refine ⟨?_, ⟨?_, ?_⟩, ?_⟩
  · intro habsent
    constructor
    · intro r hr hopen
      exact (hasForward_iff hopen).mpr fun _ => habsent r hr
    · intro r' hr' hopen
      obtain ⟨r, hr, rfl⟩ := ManagerPathHrReview.mem_upgrade.mp hr'
      refine (hasForward_iff hopen).mpr fun _ => ?_
      rw [(move_keeps now r).2.2]
      exact habsent r hr
  · intro hadvancing r hr hsubmitted
    have hopen : r.isOpen = true := by
      unfold EvaluationRecord.isOpen
      rw [hsubmitted]
      rfl
    have hforward := hadvancing _ (mem_upgradeReviewStages.mpr ⟨r, hr, rfl⟩)
      ((move_keeps now r).1.trans hopen)
    exact (hasForward_upgraded hopen).mp hforward hsubmitted
  · intro hnone r' hr' hopen'
    obtain ⟨r, hr, rfl⟩ := mem_upgradeReviewStages.mp hr'
    have hopen : r.isOpen = true := (move_keeps now r).1.symm.trans hopen'
    exact (hasForward_upgraded hopen).mpr (hnone r hr)
  · intro hnone r' hr' hopen'
    obtain ⟨r, hr, rfl⟩ := mem_upgradeReviewStages.mp hr'
    have hopen : r.isOpen = true := (move_keeps now r).1.symm.trans hopen'
    refine canAdvance_of_queue hopen' ?_
    have hforward := (@hasForward_upgraded now db r hopen).mpr (hnone r hr)
    exact (hasForward_iff hopen').mp hforward

/-! ## A member of the unit in the queue -/

def hrUnit : OrgUnit where
  id := 1
  site := none
  name := "منابع انسانی"
  isActive := true
  isHrUnit := false

/-- The office before the upgrade: its employee works in the HR unit and has been submitted to HR. -/
def officeBeforeUpgrade : Database :=
  { endState settled (office fullChain) (submittedBy 1) with
    orgUnits := Table.ofRows [hrUnit] (List.nodup_singleton _)
    personnel :=
      Table.ofRows [{ employee 1 with orgUnit := "منابع انسانی" }] (List.nodup_singleton _) }

theorem upgrade_strands_hr_member :
    ¬∀ now db, (∀ r ∈ db.evaluationRecords, r.hrReviewSkipped = false) → Advancing db →
      Advancing (upgradeReviewStages now db) := by
  intro hclaim
  have habsent : ∀ r ∈ officeBeforeUpgrade.evaluationRecords, r.hrReviewSkipped = false := by
    decide
  have hbefore : Advancing officeBeforeUpgrade := by
    intro r hr hopen
    exact (hasForward_iff hopen).mpr fun _ => habsent r hr
  obtain ⟨r, hget, hr⟩ := exists_of_any
    (o := (upgradeReviewStages 0 officeBeforeUpgrade).evaluationRecords.get? 1)
    (p := fun r => r.isOpen && (r.status = .submitted && r.hrReviewSkipped)) (by decide)
  rw [Bool.and_eq_true, Bool.and_eq_true, decide_eq_true_eq] at hr
  have hforward := hclaim 0 officeBeforeUpgrade habsent hbefore r (Table.mem_of_get? hget) hr.1
  have hskip := (hasForward_iff hr.1).mp hforward hr.2.1
  rw [hr.2.2] at hskip
  cases hskip

end NexaHR
