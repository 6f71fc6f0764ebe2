import NexaHR.System.RecordSteps

/-! # Runs of one record

One record followed through a run: it stays in the table, keeps its shape, and its status moves
along the route of the shape.

* `OnRoute`: the record sits at a desk of its shape's route or was cancelled.
* `record_persists`: a later state still has the record.
* `step_moves`, `step_performs`: what a step of the system does to the status of the record.
-/

namespace NexaHR

open Foundations

set_option autoImplicit false

/-! ## The route of a record -/

/-- The record sits at a desk of its route, or was taken off it. -/
def OnRoute (r : EvaluationRecord) : Prop :=
  r.status ∈ r.shape.route.desks ∨ r.status = .cancelled

theorem onRoute_newRecord (o : Opening) (access : EvaluationAccess) (hrReviewSkipped : Bool)
    (code : String) (id : Nat) : OnRoute (newRecord o access hrReviewSkipped code id) :=
  Or.inl (Shape.draft_mem_route _)

/-- No transition leaves a cancelled record. -/
theorem cancelled_not_mem_fromStatuses (a : Action) : .cancelled ∉ (transitions a).fromStatuses := by
  cases a <;> decide

theorem OnRoute.desk {r : EvaluationRecord} (hr : OnRoute r) (hs : r.status ≠ .cancelled) :
    r.status ∈ r.shape.route.desks :=
  hr.resolve_right hs

/-- The HR queue is not on the route of a record that HR does not review. -/
theorem submitted_not_skipped {r : EvaluationRecord} (hr : OnRoute r) (hs : r.status = .submitted) :
    r.hrReviewSkipped = false := by
  have hdesk := hr.desk (by rw [hs]; decide)
  have hall : ∀ s ∈ Shape.all, EvaluationStatus.submitted ∈ s.route.desks →
      s.hrReviewSkipped = false := by
    decide
  rw [hs] at hdesk
  exact hall r.shape r.shape.mem_all hdesk

/-- The desk after the HR stage is only on the route of a record that a supervisor scored. -/
theorem supervised_of_hrApproved {r : EvaluationRecord} (hr : OnRoute r) (hs : r.status = .hrApproved) :
    r.shape.hasSupervisor = true := by
  have hdesk := hr.desk (by rw [hs]; decide)
  have hall : ∀ s ∈ Shape.all, EvaluationStatus.hrApproved ∈ s.route.desks → s.hasSupervisor = true := by
    decide
  rw [hs] at hdesk
  exact hall r.shape r.shape.mem_all hdesk

/-- A possible transition leads to a desk of the route or to a cancelled record. -/
theorem onRoute_of_available {r : EvaluationRecord} {a : Action} {user : CurrentUser}
    (hr : OnRoute r) (hblock : transitionBlock r a user = none) :
    (transitions a).toStatus ∈ r.shape.route.desks ∨ (transitions a).toStatus = .cancelled := by
  have hfrom := (transitionBlock_eq_none.mp hblock).1
  rcases hr with hdesk | hcancelled
  · have hres := respects_of_enabled hdesk (enabled_of_available hblock)
    unfold Shape.respects at hres
    by_cases hcancel : a.isCancel = true
    · rw [if_pos hcancel] at hres
      exact Or.inr (by simpa using hres)
    · rw [if_neg hcancel] at hres
      by_cases hreturn : a.isReturn = true
      · rw [if_pos hreturn] at hres
        have hnext : r.shape.route.Next (transitions a).toStatus r.status := by simpa using hres
        exact Or.inl hnext.mem_left
      · rw [if_neg hreturn] at hres
        have hnext : r.shape.route.Next r.status (transitions a).toStatus := by simpa using hres
        exact Or.inl hnext.mem_right
  · rw [hcancelled] at hfrom
    exact absurd hfrom (cancelled_not_mem_fromStatuses a)

theorem onRoute_change {db : Database} {req : Request} {user : CurrentUser} {r r' : EvaluationRecord}
    {o : Option Action} (hr : OnRoute r) (h : Change db req user r o r') : OnRoute r' := by
  unfold OnRoute
  rw [h.shape_eq]
  rcases h.status_eq with ⟨-, hs⟩ | ⟨a, -, hblock, hs⟩
  · rw [hs]
    exact hr
  · rw [hs]
    exact onRoute_of_available hr hblock

/-- Every record of every run is on its route. -/
theorem onRoute_of_run {tr : List (Taken Database Request)} {db : Database} (h : SystemRun tr db)
    {r : EvaluationRecord} (hr : r ∈ db.evaluationRecords) : OnRoute r :=
  record_invariant onRoute_newRecord (fun _ _ _ _ _ _ hr hc => onRoute_change hr hc) h _ r
    (Table.get?_of_mem hr)

/-! ## Persistence -/

section

variable {db₀ db db' : Database} {tr : List (Taken Database Request)} {req : Request} {k : Nat}

/-- A later state still has the record, in its shape and on its route. -/
theorem record_persists (h : Run (· = db₀) Steps tr db) {r₀ : EvaluationRecord}
    (hget : db₀.evaluationRecords.get? k = some r₀) (hroute : OnRoute r₀) :
    ∃ r, db.evaluationRecords.get? k = some r ∧ r.shape = r₀.shape ∧ OnRoute r := by
  induction h with
  | nil heq =>
    subst heq
    exact ⟨r₀, hget, rfl, hroute⟩
  | cons _ hstep ih =>
    obtain ⟨r, hr, hshape, hon⟩ := ih
    obtain ⟨user, r', -, hr', hchange⟩ := step_record hstep hr
    exact ⟨r', hr', hchange.shape_eq.trans hshape, onRoute_change hon hchange⟩

/-- The status of a record in a database. -/
def statusOf (k : Nat) (db : Database) : EvaluationStatus :=
  ((db.evaluationRecords.get? k).map EvaluationRecord.status).getD .draft

theorem statusOf_eq {r : EvaluationRecord} (h : db.evaluationRecords.get? k = some r) :
    statusOf k db = r.status := by
  unfold statusOf
  rw [h]
  rfl

/-- A step moves the status of a record along its route, and leaves it when nothing was performed. -/
theorem step_moves (hstep : Steps db req db') {r : EvaluationRecord}
    (hget : db.evaluationRecords.get? k = some r) (hroute : OnRoute r) :
    r.shape.route.Moves (statusOf k db) (statusOf k db') := by
  obtain ⟨user, r', -, hr', hchange⟩ := step_record hstep hget
  rw [statusOf_eq hget, statusOf_eq hr']
  rcases hroute with hdesk | hcancelled
  · exact hchange.moves hdesk
  · rcases hchange.status_eq with ⟨-, hs⟩ | ⟨a, -, hblock, -⟩
    · exact Or.inl hs
    · have hfrom := (transitionBlock_eq_none.mp hblock).1
      rw [hcancelled] at hfrom
      exact absurd hfrom (cancelled_not_mem_fromStatuses a)

/-- A record that goes on to the next desk was carried there by a forward transition. -/
theorem step_performs (hstep : Steps db req db') {r : EvaluationRecord}
    (hget : db.evaluationRecords.get? k = some r)
    (hnext : r.shape.route.Next (statusOf k db) (statusOf k db')) :
    ∃ user a, getCurrentUser db req.userId = .ok user ∧ performedOn db req k = some a ∧
      a.isForward = true ∧ transitionBlock r a user = none ∧
      statusOf k db' = (transitions a).toStatus := by
  obtain ⟨user, r', huser, hr', hchange⟩ := step_record hstep hget
  rw [statusOf_eq hget, statusOf_eq hr'] at hnext
  have hrank := hnext.rank_eq
  rcases hchange.status_eq with ⟨-, hs⟩ | ⟨a, ha, hblock, hs⟩
  · rw [hs] at hrank
    omega
  · refine ⟨user, a, huser, ha, ?_, hblock, by rw [statusOf_eq hr', hs]⟩
    have hres := respects_of_enabled hnext.mem_left (enabled_of_available hblock)
    unfold Shape.respects at hres
    rw [hs] at hnext hrank
    by_cases hcancel : a.isCancel = true
    · rw [if_pos hcancel] at hres
      have hto : (transitions a).toStatus = .cancelled := by simpa using hres
      rw [hto] at hnext
      exact absurd hnext.mem_right r.shape.cancelled_not_mem_route
    · by_cases hreturn : a.isReturn = true
      · rw [if_neg hcancel, if_pos hreturn] at hres
        have hback : r.shape.route.Next (transitions a).toStatus r.status := by simpa using hres
        have hback' := hback.rank_eq
        omega
      · simp [Action.isForward, hcancel, hreturn]

end

end NexaHR
