import NexaHR.System.RecordRuns
import NexaHR.System.Installation

/-! # Four eyes

A record that HR reviews is not finalized without an approval of HR after its last draft, and not
without the deputy's after that when the chain has a deputy above the scorer.

* `ApprovedByHr`, `ApprovedByDeputy`: the two approvals as steps of a history.
* `Reviewed`: what the status of a record says about its history since the last draft.
* `finalized_with_four_eyes`: the result.
-/

namespace NexaHR

open Foundations

set_option autoImplicit false

/-! ## Approvals in a history -/

/-- A step in which somebody in HR, who is not the subject, approved the record. -/
def ApprovedByHr (k : Nat) (x : Taken Database Request) : Prop :=
  ∃ user r a, getCurrentUser x.before x.label.userId = .ok user ∧
    x.before.evaluationRecords.get? k = some r ∧ performedOn x.before x.label k = some a ∧
    a.isHrApproval = true ∧ user.role = .hr ∧ ¬user.isSubjectOf r

/-- A step in which the occupant of the deputy's seat approved the record. -/
def ApprovedByDeputy (k : Nat) (x : Taken Database Request) : Prop :=
  ∃ user r, getCurrentUser x.before x.label.userId = .ok user ∧
    x.before.evaluationRecords.get? k = some r ∧
    performedOn x.before x.label k = some .deputyApprove ∧ r.chain.deputyUserId = some user.id

/-- The step left the record outside the draft. -/
def PastDraft (k : Nat) (x : Taken Database Request) : Prop := statusOf k x.after ≠ .draft

/-- HR approved, and the record was not a draft since. -/
def HrSeen (k : Nat) : List (Taken Database Request) → Prop :=
  Since (fun x _ => ApprovedByHr k x) (PastDraft k)

/-- The deputy approved after HR had, and the record was not a draft since HR approved. -/
def DeputySeen (k : Nat) : List (Taken Database Request) → Prop :=
  Since (fun x old => ApprovedByDeputy k x ∧ HrSeen k old) (PastDraft k)

/-! ## The invariant -/

/-- What the status of a record says about its history. -/
structure Reviewed (k : Nat) (tr : List (Taken Database Request)) (r : EvaluationRecord) : Prop where
  byHr : r.status ∈ [.hrApproved, .deputyApproved, .finalized] → HrSeen k tr
  byDeputy : r.status ∈ [.deputyApproved, .finalized] → r.shape.hasSupervisor = true →
    r.shape.hasDeputy = true → DeputySeen k tr

theorem behindHr_ne_draft {status : EvaluationStatus}
    (h : status ∈ [.hrApproved, .deputyApproved, .finalized]) : status ≠ .draft := by
  rintro rfl
  revert h
  decide

/-- How a record that HR reviews comes to a desk behind HR's: by HR's approval, or from such a desk. -/
theorem behindHr_cases {r : EvaluationRecord} {a : Action} {user : CurrentUser}
    (hblock : transitionBlock r a user = none) (hskip : r.hrReviewSkipped = false)
    (hto : (transitions a).toStatus ∈ [.hrApproved, .deputyApproved, .finalized]) :
    a.isHrApproval = true ∨ r.status ∈ [.hrApproved, .deputyApproved, .finalized] := by
  have hrow := Shape.forall_enabled
    (P := fun s status a => s.hrReviewSkipped = false →
      (transitions a).toStatus ∈ [.hrApproved, .deputyApproved, .finalized] →
      a.isHrApproval = true ∨ status ∈ [.hrApproved, .deputyApproved, .finalized])
    (by decide) (enabled_of_available hblock)
  exact hrow hskip hto

/-- How it comes to a desk behind the deputy's: by the deputy's approval, or from such a desk. -/
theorem behindDeputy_cases {r : EvaluationRecord} {a : Action} {user : CurrentUser}
    (hblock : transitionBlock r a user = none) (hskip : r.hrReviewSkipped = false)
    (hsup : r.shape.hasSupervisor = true) (hdep : r.shape.hasDeputy = true)
    (hto : (transitions a).toStatus ∈ [.deputyApproved, .finalized]) :
    a = .deputyApprove ∧ r.status = .hrApproved ∨ r.status ∈ [.deputyApproved, .finalized] := by
  have hrow := Shape.forall_enabled
    (P := fun s status a => s.hrReviewSkipped = false → s.hasSupervisor = true → s.hasDeputy = true →
      (transitions a).toStatus ∈ [.deputyApproved, .finalized] →
      a = .deputyApprove ∧ status = .hrApproved ∨ status ∈ [.deputyApproved, .finalized])
    (by decide) (enabled_of_available hblock)
  exact hrow hskip hsup hdep hto

theorem hrApproval_role {a : Action} (ha : a.isHrApproval = true) :
    (transitions a).allowedRole = .hr ∧ (transitions a).assigneeField = some .hr := by
  cases a <;> first | exact absurd ha (by decide) | exact ⟨rfl, rfl⟩

section

variable {db db' : Database} {req : Request} {k : Nat} {tr : List (Taken Database Request)}
  {r r' : EvaluationRecord} {user : CurrentUser}

/-- An approval of HR is one by a user of HR who is not the subject. -/
theorem approvedByHr_of_change {a : Action} (huser : getCurrentUser db req.userId = .ok user)
    (hget : db.evaluationRecords.get? k = some r) (hperformed : performedOn db req k = some a)
    (ha : a.isHrApproval = true) (h : Change db req user r (some a) r') :
    ApprovedByHr k ⟨db, req, db'⟩ := by
  obtain ⟨hrole, hfield⟩ := hrApproval_role ha
  have hblock := h.status_some.1
  refine ⟨user, r, a, huser, hget, hperformed, ha, ?_, ?_⟩
  · rw [← mayActAt_hr, ← hrole]
    exact (transitionBlock_eq_none.mp hblock).2.1
  · cases h with
    | moved _ _ hself =>
      rcases hself with hself | ⟨seat, hseat⟩
      · exact hself
      · rw [hfield] at hseat
        cases hseat

theorem approvedByDeputy_of_block (huser : getCurrentUser db req.userId = .ok user)
    (hget : db.evaluationRecords.get? k = some r)
    (hperformed : performedOn db req k = some .deputyApprove)
    (hblock : transitionBlock r .deputyApprove user = none) : ApprovedByDeputy k ⟨db, req, db'⟩ := by
  have hadmits := (transitionBlock_eq_none.mp hblock).2.2.2
  rw [Transition.admits_iff_of_not_claimable rfl rfl] at hadmits
  exact ⟨user, r, huser, hget, hperformed, hadmits⟩

/-- One step keeps the invariant. -/
theorem reviewed_step (hstep : Steps db req db') (hget : db.evaluationRecords.get? k = some r)
    (hget' : db'.evaluationRecords.get? k = some r') (hskip : r.hrReviewSkipped = false)
    (hr : Reviewed k tr r) : Reviewed k (⟨db, req, db'⟩ :: tr) r' := by
  obtain ⟨user, r₁, huser, hr₁, hchange⟩ := step_record hstep hget
  rw [hget'] at hr₁
  cases hr₁
  have hpast : r'.status ≠ .draft → PastDraft k ⟨db, req, db'⟩ := by
    intro hne
    show statusOf k db' ≠ .draft
    rw [statusOf_eq hget']
    exact hne
  have hshape := hchange.shape_eq
  refine ⟨?_, ?_⟩
  · intro hbehind
    have hq := hpast (behindHr_ne_draft hbehind)
    rcases hchange.status_eq with ⟨-, hs⟩ | ⟨a, ha, hblock, hs⟩
    · rw [hs] at hbehind
      exact Since.still hq (hr.byHr hbehind)
    · rw [hs] at hbehind
      rcases behindHr_cases hblock hskip hbehind with happroval | hbefore
      · rw [ha] at hchange
        exact Since.here hq (approvedByHr_of_change huser hget ha happroval hchange)
      · exact Since.still hq (hr.byHr hbefore)
  · intro hbehind hsup hdep
    have hq := hpast (behindHr_ne_draft (List.mem_cons_of_mem _ hbehind))
    rw [hshape] at hsup hdep
    rcases hchange.status_eq with ⟨-, hs⟩ | ⟨a, ha, hblock, hs⟩
    · rw [hs] at hbehind
      exact Since.still hq (hr.byDeputy hbehind hsup hdep)
    · rw [hs] at hbehind
      rcases behindDeputy_cases hblock hskip hsup hdep hbehind with ⟨rfl, hbefore⟩ | hbefore
      · have hseen : HrSeen k tr := hr.byHr (by rw [hbefore]; decide)
        exact Since.here hq ⟨approvedByDeputy_of_block huser hget ha hblock, hseen⟩
      · exact Since.still hq (hr.byDeputy hbefore hsup hdep)

end

/-- Every record of a run that HR reviews is reviewed as its status says. -/
theorem reviewed_of_run {tr : List (Taken Database Request)} {db : Database} (h : SystemRun tr db)
    {k : Nat} : ∀ r, db.evaluationRecords.get? k = some r → r.hrReviewSkipped = false →
      Reviewed k tr r := by
  induction h with
  | nil hinit =>
    intro r hget
    exact absurd (Table.mem_of_get? hget) (hinit.no_records r)
  | @cons tr db req db' hrun hstep ih =>
    intro r' hget' hskip
    cases hget : db.evaluationRecords.get? k with
    | some r =>
      obtain ⟨user, r₁, -, hr₁, hchange⟩ := step_record hstep hget
      rw [hget'] at hr₁
      cases hr₁
      have hskip₀ : r.hrReviewSkipped = false := hchange.hrReviewSkipped_eq ▸ hskip
      exact reviewed_step hstep hget hget' hskip₀ (ih r hget hskip₀)
    | none =>
      obtain ⟨access, -, -, -, code, rfl⟩ := step_opened hstep hget hget'
      refine ⟨?_, ?_⟩
      · intro hbehind
        exact absurd rfl (behindHr_ne_draft hbehind)
      · intro hbehind
        exact absurd rfl (behindHr_ne_draft (List.mem_cons_of_mem _ hbehind))

/-! ## The result -/

/-- The scorer is the deputy exactly on a chain without a supervisor. -/
theorem hasSupervisor_of_scorer {r : EvaluationRecord} (hdep : r.chain.deputyUserId.isSome = true)
    (hscorer : scorerField r.chain.unitSupervisorUserId r.chain.deputyUserId ≠ .deputy) :
    r.shape.hasSupervisor = true := by
  by_contra hsup
  apply hscorer
  have hsup' : ¬r.chain.unitSupervisorUserId.isSome = true := hsup
  unfold scorerField
  rw [if_neg hsup', if_pos hdep]

/-- The history of a finalized record that HR reviews: an approval of HR with no draft since, and after
it one of the deputy when the deputy is not the scorer. -/
theorem finalized_with_four_eyes {tr : List (Taken Database Request)} {db : Database}
    (h : SystemRun tr db) {k : Nat} {r : EvaluationRecord}
    (hget : db.evaluationRecords.get? k = some r) (hfinal : r.status = .finalized)
    (hskip : r.hrReviewSkipped = false) :
    ∃ new x old, tr = new ++ x :: old ∧ ApprovedByHr k x ∧ PastDraft k x ∧
      (∀ y ∈ new, PastDraft k y) ∧
      (r.chain.deputyUserId.isSome = true →
        scorerField r.chain.unitSupervisorUserId r.chain.deputyUserId ≠ .deputy →
          ∃ y ∈ new, ApprovedByDeputy k y) := by
  have hreviewed := reviewed_of_run h r hget hskip
  by_cases hdep : r.chain.deputyUserId.isSome = true ∧
      scorerField r.chain.unitSupervisorUserId r.chain.deputyUserId ≠ .deputy
  · have hsup := hasSupervisor_of_scorer hdep.1 hdep.2
    have hseen := hreviewed.byDeputy (by rw [hfinal]; decide) hsup hdep.1
    obtain ⟨new, y, old, rfl, ⟨happroved, hhr⟩, hy, hnew⟩ := hseen.split
    obtain ⟨mid, x, older, rfl, hx, hpast, hmid⟩ := hhr.split
    refine ⟨new ++ y :: mid, x, older, by simp, hx, hpast, ?_, ?_⟩
    · intro z hz
      rcases List.mem_append.mp hz with hz | hz
      · exact hnew z hz
      · rcases List.mem_cons.mp hz with rfl | hz
        · exact hy
        · exact hmid z hz
    · intro _ _
      exact ⟨y, by simp, happroved⟩
  · have hseen := hreviewed.byHr (by rw [hfinal]; decide)
    obtain ⟨new, x, old, rfl, hx, hpast, hnew⟩ := hseen.split
    refine ⟨new, x, old, rfl, hx, hpast, hnew, ?_⟩
    intro hd hs
    exact absurd ⟨hd, hs⟩ hdep

theorem finalizedByAll_four_eyes :
    ∃ new x old, replay settled (office fullChain) finalizedByAll = new ++ x :: old ∧
      ApprovedByHr 1 x ∧ ∃ y ∈ new, ApprovedByDeputy 1 y := by
  obtain ⟨r, hget, hr⟩ := exists_of_any
    (o := (endState settled (office fullChain) finalizedByAll).evaluationRecords.get? 1)
    (p := fun r => r.status = .finalized && r.hrReviewSkipped = false && r.chain = fullChain)
    (by decide)
  simp only [Bool.and_eq_true, decide_eq_true_eq] at hr
  obtain ⟨⟨hfinal, hskip⟩, hchain⟩ := hr
  obtain ⟨new, x, old, heq, hx, -, -, hdeputy⟩ :=
    finalized_with_four_eyes finalizedByAll_run hget hfinal hskip
  exact ⟨new, x, old, heq, hx, hdeputy (by rw [hchain]; decide) (by rw [hchain]; decide)⟩

end NexaHR
