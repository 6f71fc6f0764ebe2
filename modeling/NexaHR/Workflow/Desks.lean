import NexaHR.Foundations.Route
import NexaHR.Services.Workflow

/-! # The desks of a record

What the transition table is for, said once: the shape of a record fixes the list of desks that it
passes, and every transition either carries it on to the next desk, sends it one desk back, or
cancels it.

* `Shape`, `Shape.route`: the eight shapes and their desks.
* `Shape.guardAt`: a guard of the table as a condition on shape and status.
* `moves_of_available`: a possible transition is a move along the route.
* `exists_forward`: from every desk but the last, some transition carries the record on.
-/

namespace NexaHR

open Foundations

set_option autoImplicit false

/-! ## Shapes and routes -/

/-- Which stages a record has. -/
structure Shape where
  hasSupervisor : Bool
  hasDeputy : Bool
  hrReviewSkipped : Bool
  deriving DecidableEq, Repr

def EvaluationRecord.shape (r : EvaluationRecord) : Shape where
  hasSupervisor := r.chain.unitSupervisorUserId.isSome
  hasDeputy := r.chain.deputyUserId.isSome
  hrReviewSkipped := r.hrReviewSkipped

namespace Shape

def all : List Shape :=
  [⟨true, true, true⟩, ⟨true, true, false⟩, ⟨true, false, true⟩, ⟨true, false, false⟩,
    ⟨false, true, true⟩, ⟨false, true, false⟩, ⟨false, false, true⟩, ⟨false, false, false⟩]

theorem mem_all (s : Shape) : s ∈ all := by
  obtain ⟨a, b, c⟩ := s
  cases a <;> cases b <;> cases c <;> simp [all]

/-- The desk of the HR queue, unless HR does not review the record. -/
def hrDesk (s : Shape) : List EvaluationStatus :=
  if s.hrReviewSkipped then [] else [.submitted]

/-- The desk after the HR stage: the deputy's or, without a deputy, the chief executive's. A scorer
other than the supervisor has used it up. -/
def reviewDesk (s : Shape) : List EvaluationStatus :=
  if s.hasSupervisor then [.hrApproved] else []

/-- The chief executive's own desk. Without a deputy he sits at the one before; on his own chain
he has one only when HR does not review it. -/
def ceoDesk (s : Shape) : List EvaluationStatus :=
  if s.hasDeputy || (!s.hasSupervisor && s.hrReviewSkipped) then [.deputyApproved] else []

def desks (s : Shape) : List EvaluationStatus :=
  [.draft] ++ s.hrDesk ++ s.reviewDesk ++ s.ceoDesk ++ [.finalized]

theorem desks_nodup (s : Shape) : s.desks.Nodup := by
  obtain ⟨a, b, c⟩ := s
  cases a <;> cases b <;> cases c <;> decide

/-- The desks that a record of this shape passes, from the draft to the final document. -/
def route (s : Shape) : Route EvaluationStatus := ⟨s.desks, s.desks_nodup⟩

theorem draft_mem_route (s : Shape) : .draft ∈ s.route.desks := by
  simp [route, desks]

theorem cancelled_not_mem_route (s : Shape) : .cancelled ∉ s.route.desks := by
  obtain ⟨a, b, c⟩ := s
  cases a <;> cases b <;> cases c <;> decide

/-- The seat that scores. -/
def scorer (s : Shape) : ChainSeat :=
  if s.hasSupervisor then .unitSupervisor else if s.hasDeputy then .deputy else .ceo

/-- The seat whose turn it is at a desk. -/
def turn (s : Shape) : EvaluationStatus → Option SeatField
  | .draft => some (.chain s.scorer)
  | .submitted => if s.hrReviewSkipped then none else some .hr
  | .hrApproved => some (.chain (if s.hasDeputy then .deputy else .ceo))
  | .deputyApproved => some (.chain .ceo)
  | .finalized | .cancelled => none

/-! ## Guards on shapes -/

def isCeoOnly (s : Shape) : Bool := !s.hasSupervisor && !s.hasDeputy

/-- The guard of an action as a condition on shape and status. -/
def guardAt (s : Shape) (status : EvaluationStatus) : Action → Bool
  | .submit | .hrApprove => s.hasSupervisor && !s.hrReviewSkipped
  | .submitHrSubject => s.hasSupervisor && s.hrReviewSkipped
  | .managerSubmit | .ceoReturnManager | .hrApproveManager =>
    !s.hasSupervisor && s.hasDeputy && !s.hrReviewSkipped
  | .managerSubmitHrSubject | .ceoReturnManagerHrSubject =>
    !s.hasSupervisor && s.hasDeputy && s.hrReviewSkipped
  | .ceoSubmit | .hrFinalizeDirectCeo => s.isCeoOnly && !s.hrReviewSkipped
  | .ceoSubmitHrSubject => s.isCeoOnly && s.hrReviewSkipped
  | .deputyApprove | .cancel | .cancelOnSeparation => true
  | .ceoFinalize => status ≠ .hrApproved || !s.hasDeputy
  | .hrReturn | .deputyReturn => !s.hrReviewSkipped
  | .deputyReturnHrSubject | .cancelHrSubject => s.hrReviewSkipped
  | .ceoReturn => s.hasSupervisor
  | .ceoReturnCeoOnly => s.isCeoOnly
  | .ceoReturnNoDeputy => s.hasSupervisor && !s.hasDeputy && !s.hrReviewSkipped
  | .ceoReturnNoDeputyHrSubject => s.hasSupervisor && !s.hasDeputy && s.hrReviewSkipped

/-- The seat that an action needs is a stage of the shape. -/
def hasSeat (s : Shape) : Option SeatField → Bool
  | some (.chain .unitSupervisor) => s.hasSupervisor
  | some (.chain .deputy) => s.hasDeputy
  | _ => true

/-- The action is open on this shape at this status, as far as seats go that are not taken. -/
def enabled (s : Shape) (status : EvaluationStatus) (a : Action) : Bool :=
  status ∈ (transitions a).fromStatuses && s.guardAt status a &&
    s.hasSeat (transitions a).assigneeField

/-- What holds of every row of the table on every shape and status where it is enabled is checked on
the finitely many of them. -/
theorem forall_enabled {P : Shape → EvaluationStatus → Action → Prop}
    (h : ∀ s ∈ all, ∀ status ∈ EvaluationStatus.all, ∀ a ∈ Action.all,
      s.enabled status a = true → P s status a)
    {s : Shape} {status : EvaluationStatus} {a : Action} (ha : s.enabled status a = true) :
    P s status a :=
  h s s.mem_all status status.mem_all a a.mem_all ha

end Shape

namespace EvaluationRecord

variable (r : EvaluationRecord)

theorem isManagerPath_eq : r.isManagerPath = !r.shape.hasSupervisor := by
  unfold isManagerPath shape
  cases r.chain.unitSupervisorUserId <;> rfl

theorem skipsDeputy_eq : r.skipsDeputy = !r.shape.hasDeputy := by
  unfold skipsDeputy shape
  cases r.chain.deputyUserId <;> rfl

theorem isCeoOnlyPath_eq : r.isCeoOnlyPath = r.shape.isCeoOnly := by
  show (r.isManagerPath && r.skipsDeputy) = _
  rw [isManagerPath_eq, skipsDeputy_eq]
  rfl

theorem skipsHrReview_eq : r.skipsHrReview = r.shape.hrReviewSkipped := rfl

theorem hrFinalizesRecord_eq :
    r.hrFinalizesRecord = (r.shape.isCeoOnly && !r.shape.hrReviewSkipped) := by
  rw [← isCeoOnlyPath_eq]
  rfl

end EvaluationRecord

/-- The guards of the table read nothing but shape and status. -/
theorem guard_eq_guardAt (r : EvaluationRecord) (a : Action) :
    (transitions a).guard r = r.shape.guardAt r.status a := by
  have hdep : r.chain.deputyUserId.isNone = !r.shape.hasDeputy := r.skipsDeputy_eq
  have hfin := r.hrFinalizesRecord_eq
  have hceo := r.isCeoOnlyPath_eq
  have hman := r.isManagerPath_eq
  have hskip := r.skipsHrReview_eq
  have hnodep := r.skipsDeputy_eq
  unfold transitions
  cases a <;> simp only [submission, hrStage, deputyReturnTo, ceoStage, *] <;>
    generalize r.shape = s <;> obtain ⟨sup, dep, skip⟩ := s <;>
    cases sup <;> cases dep <;> cases skip <;> rfl

/-- The seat is filled exactly when the shape has the stage. -/
theorem hasSeat_of_seat_isSome {r : EvaluationRecord} {field : SeatField}
    (h : (r.seat field).isSome = true) : r.shape.hasSeat (some field) = true := by
  match field with
  | .chain .unitSupervisor => exact h
  | .chain .deputy => exact h
  | .chain .ceo => rfl
  | .hr => rfl

/-! ## The table keeps to the route -/

/-- What an action may do on a shape: carry on, send one desk back, or cancel. -/
def Shape.respects (s : Shape) (status : EvaluationStatus) (a : Action) : Bool :=
  if a.isCancel then (transitions a).toStatus = .cancelled
  else if a.isReturn then s.route.Next (transitions a).toStatus status
  else s.route.Next status (transitions a).toStatus

/-- From a desk of the route, every enabled action keeps to the route. -/
theorem respects_of_enabled {s : Shape} {status : EvaluationStatus} {a : Action}
    (hdesk : status ∈ s.route.desks) (h : s.enabled status a = true) :
    s.respects status a = true := by
  have hall : ∀ s ∈ Shape.all, ∀ status ∈ s.route.desks, ∀ a ∈ Action.all,
      s.enabled status a = true → s.respects status a = true := by
    decide
  exact hall s s.mem_all status hdesk a a.mem_all h

/-- From every desk but the last, some action carries a record of the shape on, and at most its
own seat is needed for it. -/
theorem exists_forward {s : Shape} {status : EvaluationStatus} (hdesk : status ∈ s.route.desks)
    (hopen : status ≠ .finalized) : ∃ a : Action, a.isForward = true ∧ s.enabled status a = true := by
  have hall : ∀ s ∈ Shape.all, ∀ status ∈ s.route.desks, status ≠ .finalized →
      ∃ a ∈ Action.all, a.isForward = true ∧ s.enabled status a = true := by
    decide
  obtain ⟨a, -, ha⟩ := hall s s.mem_all status hdesk hopen
  exact ⟨a, ha⟩

/-- A forward action is addressed to the seat whose turn it is. -/
theorem assigneeField_eq_turn {s : Shape} {status : EvaluationStatus} {a : Action}
    (h : s.enabled status a = true) (hforward : a.isForward = true) :
    (transitions a).assigneeField = s.turn status := by
  have hrow := Shape.forall_enabled
    (P := fun s status a => a.isForward = true → (transitions a).assigneeField = s.turn status)
    (by decide) h
  exact hrow hforward

/-- Where it is somebody's turn, a forward action is addressed to him. -/
theorem exists_forward_of_turn {s : Shape} {status : EvaluationStatus} {field : SeatField}
    (h : s.turn status = some field) :
    ∃ a : Action, a.isForward = true ∧ s.enabled status a = true ∧
      (transitions a).assigneeField = some field := by
  have hall : ∀ s ∈ Shape.all, ∀ status ∈ EvaluationStatus.all, (s.turn status).isSome = true →
      ∃ a ∈ Action.all, a.isForward = true ∧ s.enabled status a = true ∧
        (transitions a).assigneeField = s.turn status := by
    decide
  have hsome : (s.turn status).isSome = true := by rw [h]; rfl
  obtain ⟨a, -, hforward, henabled, hfield⟩ := hall s s.mem_all status status.mem_all hsome
  exact ⟨a, hforward, henabled, hfield.trans h⟩

/-- A transition that is open to somebody is enabled on the record's shape. -/
theorem enabled_of_available {r : EvaluationRecord} {a : Action} {user : CurrentUser}
    (h : transitionBlock r a user = none) : r.shape.enabled r.status a = true := by
  obtain ⟨hfrom, -, hguard, hseat⟩ := transitionBlock_eq_none.mp h
  rw [guard_eq_guardAt] at hguard
  have hhas : r.shape.hasSeat (transitions a).assigneeField = true := by
    cases hf : (transitions a).assigneeField with
    | none => rfl
    | some field =>
      cases field with
      | hr => rfl
      | chain seat =>
        have hclaim : (transitions a).claimableIfUnassigned = false := by
          cases a <;> first | rfl | cases hf
        rw [Transition.admits_iff_of_not_claimable hf hclaim] at hseat
        exact hasSeat_of_seat_isSome (by rw [hseat]; rfl)
  simp [Shape.enabled, hfrom, hguard, hhas]

/-- A possible transition of a record on its route is a move along the route. -/
theorem moves_of_available {r : EvaluationRecord} {a : Action} {user : CurrentUser}
    (hdesk : r.status ∈ r.shape.route.desks) (h : transitionBlock r a user = none) :
    r.shape.route.Moves r.status (transitions a).toStatus := by
  have hres := respects_of_enabled hdesk (enabled_of_available h)
  unfold Shape.respects at hres
  split at hres
  · have hto : (transitions a).toStatus = .cancelled := by simpa using hres
    exact Or.inr ⟨hdesk, Or.inr (Or.inr (hto ▸ r.shape.cancelled_not_mem_route))⟩
  · split at hres
    · have hprev : r.shape.route.Next (transitions a).toStatus r.status := by simpa using hres
      have hrank := hprev.rank_eq
      exact Or.inr ⟨hdesk, Or.inr (Or.inl (by omega))⟩
    · have hnext : r.shape.route.Next r.status (transitions a).toStatus := by simpa using hres
      exact Or.inr ⟨hdesk, Or.inl hnext⟩

end NexaHR
