import NexaHR.System.RecordRuns
import NexaHR.Workflow.Turns

/-! # No record is stranded

Every record that is neither finalized nor cancelled can be carried on, by the occupant of a seat
that is filled or, at an unowned HR desk, by any HR user but its subject.

* `CanAdvance`: a forward transition is open to somebody.
* `TableRun`: the runs of the table alone, with any users and any `before` that keeps the shape.
-/

namespace NexaHR

open Foundations

set_option autoImplicit false

/-! ## Carrying on -/

/-- Some forward transition of the table fits status and shape, and is open to the occupant of its
seat or, where the HR seat is empty, to every HR user but the subject. -/
def CanAdvance (r : EvaluationRecord) : Prop :=
  ∃ a : Action, a.isForward = true ∧ r.status ∈ (transitions a).fromStatuses ∧
    (transitions a).guard r = true ∧
    ((∃ field k, (transitions a).assigneeField = some field ∧ r.seat field = some k ∧
        ∀ user : CurrentUser, user.id = k → mayActAt user.role (transitions a).allowedRole = true →
          transitionBlock r a user = none) ∨
      ((transitions a).assigneeField = some .hr ∧ r.hrUserId = none ∧
        ∀ user : CurrentUser, user.role = .hr → ¬user.isSubjectOf r →
          transitionBlock r a user = none ∧ ensureHrDuties (transitions a) r user = .ok ()))

/-- A transition that is enabled on shape and status is open to somebody. -/
theorem canAdvance_of_enabled {r : EvaluationRecord} {a : Action} (hforward : a.isForward = true)
    (henabled : r.shape.enabled r.status a = true) : CanAdvance r := by
  obtain ⟨hfrom, hguard⟩ := enabled_parts henabled
  refine ⟨a, hforward, hfrom, hguard, ?_⟩
  obtain ⟨field, hfield⟩ := forward_field hforward
  cases hk : r.seat field with
  | some k =>
    left
    refine ⟨field, k, hfield, hk, ?_⟩
    intro user hid hrole
    refine transitionBlock_eq_none.mpr ⟨hfrom, hrole, hguard, ?_⟩
    simp [Transition.admits, hfield, hk, hid]
  | none =>
    right
    cases field with
    | chain seat =>
      simp only [Shape.enabled, Bool.and_eq_true, hfield] at henabled
      have hsome := seat_isSome_of_hasSeat henabled.2
      rw [show r.chain.seat seat = none from hk] at hsome
      cases hsome
    | hr =>
      refine ⟨hfield, hk, ?_⟩
      intro user hrole hself
      have hsits : SitsAt r user .hr := ⟨hrole, Or.inl hk, hself⟩
      exact (performable_iff hfield).mpr ⟨henabled, hsits⟩

theorem canAdvance_of_onRoute {r : EvaluationRecord} (hr : OnRoute r) (hopen : r.status ≠ .finalized)
    (hcancelled : r.status ≠ .cancelled) : CanAdvance r := by
  have hdesk : r.status ∈ r.shape.route.desks := by
    rcases hr with hdesk | hc
    · exact hdesk
    · exact absurd hc hcancelled
  obtain ⟨a, hforward, henabled⟩ := exists_forward hdesk hopen
  exact canAdvance_of_enabled hforward henabled

/-! ## Runs of the table -/

/-- One use of the table, by any user and at any time. -/
structure TableStep where
  db : Database
  env : Env
  action : Action
  user : CurrentUser
  before : EvaluationRecord → Except HTTPException Work
  keeps_shape : ∀ r w, before r = .ok w → w.record.shape = r.shape

/-- The transition was taken and left the record at `r'`. -/
def TableStep.Takes (r : EvaluationRecord) (t : TableStep) (r' : EvaluationRecord) : Prop :=
  ∃ w, applyTransition t.db t.env r t.action t.user t.before = .ok w ∧ w.record = r'

/-- A record as it was opened, whatever its access row and its unit. -/
def IsNew (r : EvaluationRecord) : Prop :=
  ∃ o access hrReviewSkipped code id, r = newRecord o access hrReviewSkipped code id

abbrev TableRun (tr : List (Taken EvaluationRecord TableStep)) (r : EvaluationRecord) : Prop :=
  Run IsNew TableStep.Takes tr r

theorem claimedFor_shape (r : EvaluationRecord) (a : Action) (user : CurrentUser) :
    (r.claimedFor a user).shape = r.shape := by
  obtain ⟨-, -, hskip, hchain⟩ := claimedFor_keeps r a user
  simp only [EvaluationRecord.shape, hskip, hchain]

theorem onRoute_takes {r r' : EvaluationRecord} {t : TableStep} (hr : OnRoute r)
    (h : TableStep.Takes r t r') : OnRoute r' := by
  obtain ⟨w, hw, rfl⟩ := h
  obtain ⟨hblock, -, -, w₀, hw₀, -, hrecord, -, -⟩ := applyTransition_ok hw
  have hshape : w.record.shape = r.shape := by
    rw [hrecord]
    exact (t.keeps_shape _ _ hw₀).trans (claimedFor_shape r t.action t.user)
  have hstatus : w.record.status = (transitions t.action).toStatus := by
    rw [hrecord]
    rfl
  unfold OnRoute
  rw [hshape, hstatus]
  exact onRoute_of_available hr hblock

theorem onRoute_of_tableRun {tr : List (Taken EvaluationRecord TableStep)} {r : EvaluationRecord}
    (h : TableRun tr r) : OnRoute r := by
  refine h.invariant ?_ ?_
  · rintro r ⟨o, access, hrReviewSkipped, code, id, rfl⟩
    exact onRoute_newRecord o access hrReviewSkipped code id
  · intro r t r' hr ht
    exact onRoute_takes hr ht

/-! ## The result -/

/-- What it means that a record is not stranded. -/
def NotStranded (r : EvaluationRecord) : Prop :=
  (r.status ≠ .finalized → r.status ≠ .cancelled → CanAdvance r) ∧
    (r.status = .submitted → r.hrReviewSkipped = false)

theorem notStranded_of_onRoute {r : EvaluationRecord} (hr : OnRoute r) : NotStranded r :=
  ⟨canAdvance_of_onRoute hr, submitted_not_skipped hr⟩

/-- Whatever transitions were taken since it was opened, by the table alone or by the requests of the
system, no record is stranded. -/
theorem no_record_is_stranded :
    (∀ tr r, TableRun tr r → NotStranded r) ∧
      ∀ tr db, SystemRun tr db → ∀ r ∈ db.evaluationRecords, NotStranded r := by
  refine ⟨?_, ?_⟩
  · intro tr r h
    exact notStranded_of_onRoute (onRoute_of_tableRun h)
  · intro tr db h r hr
    exact notStranded_of_onRoute (onRoute_of_run h hr)

end NexaHR
