import NexaHR.Models.Database

/-! # The transition table

`services/workflow.py`: the shape predicates of a record, the table of transitions, and the
condition under which a user may take one of them.

* `Transition`, `transitions`: one row per action, with its source statuses, its target, the role
  and the seat it needs, its guard and its refusals.
* `transitionBlock`: why a transition is not possible, `none` when it is.
* `documentSignatories`: who signs the final document.
-/

namespace NexaHR

open Foundations

set_option autoImplicit false

/-! ## Shape of a record -/

def openStatuses : List EvaluationStatus := [.draft, .submitted, .hrApproved, .deputyApproved]

namespace EvaluationRecord

/-- `IS_OPEN_RECORD`: neither finalized nor cancelled. -/
def isOpen (r : EvaluationRecord) : Bool := r.status ∈ openStatuses

theorem isOpen_eq (r : EvaluationRecord) :
    r.isOpen = decide (r.status ≠ .finalized ∧ r.status ≠ .cancelled) := by
  unfold isOpen openStatuses
  cases r.status <;> decide

def isManagerPath (r : EvaluationRecord) : Bool := r.chain.unitSupervisorUserId.isNone

def isCeoOnlyPath (r : EvaluationRecord) : Bool :=
  r.chain.unitSupervisorUserId.isNone && r.chain.deputyUserId.isNone

def hrFinalizesRecord (r : EvaluationRecord) : Bool :=
  hrFinalizes r.chain.unitSupervisorUserId r.chain.deputyUserId r.hrReviewSkipped

def skipsHrReview (r : EvaluationRecord) : Bool := r.hrReviewSkipped

def skipsDeputy (r : EvaluationRecord) : Bool := r.chain.deputyUserId.isNone

/-- An open record of the HR unit is closed to the HR panel. -/
def hrPanelIsShielded (r : EvaluationRecord) : Bool := r.skipsHrReview && r.isOpen

end EvaluationRecord

/-! ## Actions -/

inductive Action
  | submit | submitHrSubject
  | managerSubmit | managerSubmitHrSubject
  | ceoSubmit | ceoSubmitHrSubject
  | hrApprove | hrFinalizeDirectCeo | hrApproveManager
  | deputyApprove
  | ceoFinalize
  | hrReturn
  | deputyReturn | deputyReturnHrSubject
  | ceoReturn | ceoReturnManager | ceoReturnCeoOnly | ceoReturnNoDeputy
  | ceoReturnNoDeputyHrSubject | ceoReturnManagerHrSubject
  | cancel | cancelOnSeparation | cancelHrSubject
  deriving DecidableEq, Repr

namespace Action

/-- Every action of the table. -/
def all : List Action :=
  [submit, submitHrSubject, managerSubmit, managerSubmitHrSubject, ceoSubmit, ceoSubmitHrSubject,
    hrApprove, hrFinalizeDirectCeo, hrApproveManager, deputyApprove, ceoFinalize, hrReturn,
    deputyReturn, deputyReturnHrSubject, ceoReturn, ceoReturnManager, ceoReturnCeoOnly,
    ceoReturnNoDeputy, ceoReturnNoDeputyHrSubject, ceoReturnManagerHrSubject, cancel,
    cancelOnSeparation, cancelHrSubject]

theorem mem_all (a : Action) : a ∈ all := by
  cases a <;> simp [all]

/-- The action's key in the table. -/
def key : Action → String
  | submit => "submit"
  | submitHrSubject => "submit_hr_subject"
  | managerSubmit => "manager_submit"
  | managerSubmitHrSubject => "manager_submit_hr_subject"
  | ceoSubmit => "ceo_submit"
  | ceoSubmitHrSubject => "ceo_submit_hr_subject"
  | hrApprove => "hr_approve"
  | hrFinalizeDirectCeo => "hr_finalize_direct_ceo"
  | hrApproveManager => "hr_approve_manager"
  | deputyApprove => "deputy_approve"
  | ceoFinalize => "ceo_finalize"
  | hrReturn => "hr_return"
  | deputyReturn => "deputy_return"
  | deputyReturnHrSubject => "deputy_return_hr_subject"
  | ceoReturn => "ceo_return"
  | ceoReturnManager => "ceo_return_manager"
  | ceoReturnCeoOnly => "ceo_return_ceo_only"
  | ceoReturnNoDeputy => "ceo_return_no_deputy"
  | ceoReturnNoDeputyHrSubject => "ceo_return_no_deputy_hr_subject"
  | ceoReturnManagerHrSubject => "ceo_return_manager_hr_subject"
  | cancel => "cancel"
  | cancelOnSeparation => "cancel_on_separation"
  | cancelHrSubject => "cancel_hr_subject"

/-- The transitions that send a record back. -/
def isReturn : Action → Bool
  | hrReturn | deputyReturn | deputyReturnHrSubject | ceoReturn | ceoReturnManager
  | ceoReturnCeoOnly | ceoReturnNoDeputy | ceoReturnNoDeputyHrSubject
  | ceoReturnManagerHrSubject => true
  | _ => false

/-- The transitions that close a record without a result. -/
def isCancel : Action → Bool
  | cancel | cancelOnSeparation | cancelHrSubject => true
  | _ => false

/-- The transitions that carry a record on. -/
def isForward (a : Action) : Bool := !a.isReturn && !a.isCancel

/-- The scorer's transitions out of the draft. -/
def isSubmit : Action → Bool
  | submit | submitHrSubject | managerSubmit | managerSubmitHrSubject | ceoSubmit
  | ceoSubmitHrSubject => true
  | _ => false

/-- The approvals of the HR stage. -/
def isHrApproval : Action → Bool
  | hrApprove | hrFinalizeDirectCeo | hrApproveManager => true
  | _ => false

end Action

/-! ## The table -/

/-- A row of the table. -/
structure Transition where
  fromStatuses : List EvaluationStatus
  toStatus : EvaluationStatus
  allowedRole : UserRole
  assigneeField : Option SeatField
  guard : EvaluationRecord → Bool := fun _ => true
  errorStatus : Nat
  errorDetail : String
  ownerErrorDetail : Option String := none
  claimableIfUnassigned : Bool := false
  bypassesHrUnitShield : Bool := false

def submitErrorDetail : String := "این ارزیابی در مرحله ثبت توسط شما نیست"

def hrQueueErrorDetail : String := "این ارزیابی در انتظار بررسی منابع انسانی نیست"

def hrOwnerErrorDetail : String := "این پرونده در اختیار کاربر دیگری از منابع انسانی است"

def deputyReturnErrorDetail : String := "این ارزیابی در مرحله بررسی معاونت توسط شما نیست"

def ceoErrorDetail : String := "این ارزیابی در مرحله تأیید نهایی توسط شما نیست"

def cancelErrorDetail : String := "فقط پروندهٔ باز (نهایی‌نشده و لغونشده) قابل لغو است"

/-- A transition of the scoring seat out of the draft. -/
def submission (seat : ChainSeat) (toStatus : EvaluationStatus)
    (guard : EvaluationRecord → Bool) : Transition where
  fromStatuses := [.draft]
  toStatus := toStatus
  allowedRole := seatRole seat
  assigneeField := some (.chain seat)
  guard := guard
  errorStatus := 403
  errorDetail := submitErrorDetail

/-- A transition of the HR stage, open to every HR user until somebody owns the record. -/
def hrStage (toStatus : EvaluationStatus) (errorDetail : String)
    (guard : EvaluationRecord → Bool) : Transition where
  fromStatuses := [.submitted]
  toStatus := toStatus
  allowedRole := .hr
  assigneeField := some .hr
  guard := guard
  errorStatus := 400
  errorDetail := errorDetail
  ownerErrorDetail := some hrOwnerErrorDetail
  claimableIfUnassigned := true

/-- A return by the deputy. -/
def deputyReturnTo (toStatus : EvaluationStatus) (guard : EvaluationRecord → Bool) : Transition where
  fromStatuses := [.hrApproved]
  toStatus := toStatus
  allowedRole := .deputy
  assigneeField := some (.chain .deputy)
  guard := guard
  errorStatus := 403
  errorDetail := deputyReturnErrorDetail

/-- A transition of the chief executive at the end of the chain. -/
def ceoStage (fromStatuses : List EvaluationStatus) (toStatus : EvaluationStatus)
    (guard : EvaluationRecord → Bool) : Transition where
  fromStatuses := fromStatuses
  toStatus := toStatus
  allowedRole := .ceo
  assigneeField := some (.chain .ceo)
  guard := guard
  errorStatus := 403
  errorDetail := ceoErrorDetail

/-- `TRANSITIONS`. -/
def transitions : Action → Transition
  | .submit => submission .unitSupervisor .submitted fun r => !r.isManagerPath && !r.skipsHrReview
  | .submitHrSubject =>
    submission .unitSupervisor .hrApproved fun r => !r.isManagerPath && r.skipsHrReview
  | .managerSubmit =>
    submission .deputy .submitted fun r =>
      r.isManagerPath && !r.isCeoOnlyPath && !r.skipsHrReview
  | .managerSubmitHrSubject =>
    submission .deputy .deputyApproved fun r =>
      r.isManagerPath && !r.isCeoOnlyPath && r.skipsHrReview
  | .ceoSubmit => submission .ceo .submitted fun r => r.isCeoOnlyPath && !r.skipsHrReview
  | .ceoSubmitHrSubject => submission .ceo .deputyApproved fun r => r.isCeoOnlyPath && r.skipsHrReview
  | .hrApprove =>
    hrStage .hrApproved hrQueueErrorDetail fun r => !r.isManagerPath && !r.skipsHrReview
  | .hrFinalizeDirectCeo =>
    hrStage .finalized "این ارزیابی در انتظار بررسی نهایی منابع انسانی نیست"
      EvaluationRecord.hrFinalizesRecord
  -- The chief executive's own chain has no supervisor either, so it is excluded by name.
  | .hrApproveManager =>
    hrStage .deputyApproved hrQueueErrorDetail fun r =>
      r.isManagerPath && !r.skipsHrReview && !r.hrFinalizesRecord
  | .deputyApprove =>
    { fromStatuses := [.hrApproved]
      toStatus := .deputyApproved
      allowedRole := .deputy
      assigneeField := some (.chain .deputy)
      errorStatus := 403
      errorDetail := "این ارزیابی در مرحله تأیید معاونت توسط شما نیست" }
  | .ceoFinalize =>
    ceoStage [.deputyApproved, .hrApproved] .finalized fun r =>
      decide (r.status ≠ .hrApproved) || r.chain.deputyUserId.isNone
  | .hrReturn => hrStage .draft hrQueueErrorDetail fun r => !r.skipsHrReview
  | .deputyReturn => deputyReturnTo .submitted fun r => !r.skipsHrReview
  | .deputyReturnHrSubject => deputyReturnTo .draft EvaluationRecord.skipsHrReview
  | .ceoReturn => ceoStage [.deputyApproved] .hrApproved fun r => !r.isManagerPath
  | .ceoReturnManager =>
    ceoStage [.deputyApproved] .submitted fun r =>
      r.isManagerPath && !r.isCeoOnlyPath && !r.skipsHrReview
  | .ceoReturnCeoOnly =>
    ceoStage [.deputyApproved, .submitted] .draft EvaluationRecord.isCeoOnlyPath
  | .ceoReturnNoDeputy =>
    ceoStage [.hrApproved] .submitted fun r =>
      r.skipsDeputy && !r.isManagerPath && !r.skipsHrReview
  | .ceoReturnNoDeputyHrSubject =>
    ceoStage [.hrApproved] .draft fun r => r.skipsDeputy && !r.isManagerPath && r.skipsHrReview
  | .ceoReturnManagerHrSubject =>
    ceoStage [.deputyApproved] .draft fun r =>
      r.isManagerPath && !r.isCeoOnlyPath && r.skipsHrReview
  | .cancel =>
    { fromStatuses := openStatuses
      toStatus := .cancelled
      allowedRole := .hr
      assigneeField := none
      errorStatus := 400
      errorDetail := cancelErrorDetail }
  | .cancelOnSeparation =>
    { fromStatuses := openStatuses
      toStatus := .cancelled
      allowedRole := .hr
      assigneeField := none
      bypassesHrUnitShield := true
      errorStatus := 400
      errorDetail := cancelErrorDetail }
  -- Open to the deputy and, by rank, to the chief executive.
  | .cancelHrSubject =>
    { fromStatuses := openStatuses
      toStatus := .cancelled
      allowedRole := .deputy
      assigneeField := none
      guard := EvaluationRecord.skipsHrReview
      errorStatus := 400
      errorDetail := "فقط پروندهٔ بازِ واحد منابع انسانی از این مسیر قابل لغو است" }

/-! ## Roles and stages -/

/-- The rank of a role in the chain. HR is not a rung of it. -/
def chainRank : UserRole → Option Nat
  | .unitSupervisor => some 1
  | .deputy => some 2
  | .ceo => some 3
  | _ => none

/-- A role may do the work of a stage: HR its own, a superior that of a stage below. -/
def mayActAt (userRole stageRole : UserRole) : Bool :=
  if stageRole = .hr then userRole = .hr
  else
    match chainRank userRole, chainRank stageRole with
    | some u, some s => s ≤ u
    | _, _ => false

@[simp] theorem mayActAt_hr (role : UserRole) : mayActAt role .hr = true ↔ role = .hr := by
  simp [mayActAt]

theorem mayActAt_ceo_iff (role : UserRole) : mayActAt role .ceo = true ↔ role = .ceo := by
  cases role <;> decide

theorem mayActAt_deputy_iff (role : UserRole) :
    mayActAt role .deputy = true ↔ role = .deputy ∨ role = .ceo := by
  cases role <;> decide

theorem mayActAt_seatRole_ne_hr {role : UserRole} {seat : ChainSeat}
    (h : mayActAt role (seatRole seat) = true) : role ≠ .hr := by
  rintro rfl
  cases seat <;> simp [mayActAt, seatRole, chainRank] at h

theorem mayActAt_seatRole_self (seat : ChainSeat) :
    mayActAt (seatRole seat) (seatRole seat) = true := by
  cases seat <;> rfl

/-! ## Whether a transition is possible -/

inductive Block
  | stage | owner
  deriving DecidableEq, Repr

/-- The seat of the transition admits the user: it is his, or nobody's and free to take. -/
def Transition.admits (spec : Transition) (r : EvaluationRecord) (userId : Nat) : Bool :=
  match spec.assigneeField with
  | none => true
  | some field => (r.seat field = none && spec.claimableIfUnassigned) || r.seat field = some userId

/-- `_transition_block`: why the transition is not possible. -/
def transitionBlock (r : EvaluationRecord) (a : Action) (user : CurrentUser) : Option Block :=
  let spec := transitions a
  if ¬(r.status ∈ spec.fromStatuses) ∨ mayActAt user.role spec.allowedRole = false then
    some .stage
  else if spec.guard r = false then some .stage
  else if spec.admits r user.id = false then some .owner
  else none

def transitionIsAvailable (r : EvaluationRecord) (a : Action) (user : CurrentUser) : Bool :=
  transitionBlock r a user = none

def ensureTransitionAllowed (r : EvaluationRecord) (a : Action) (user : CurrentUser) :
    Except HTTPException Transition :=
  let spec := transitions a
  match transitionBlock r a user with
  | some .stage => .error ⟨spec.errorStatus, spec.errorDetail, none⟩
  | some .owner => .error ⟨403, spec.ownerErrorDetail.getD spec.errorDetail, none⟩
  | none => .ok spec

theorem transitionBlock_eq_none {r : EvaluationRecord} {a : Action} {user : CurrentUser} :
    transitionBlock r a user = none ↔
      r.status ∈ (transitions a).fromStatuses ∧
        mayActAt user.role (transitions a).allowedRole = true ∧
        (transitions a).guard r = true ∧ (transitions a).admits r user.id = true := by
  unfold transitionBlock
  constructor
  · intro h
    simp only at h
    split at h
    · cases h
    next h1 =>
      split at h
      · cases h
      next h2 =>
        split at h
        · cases h
        next h3 =>
          rw [not_or, not_not, Bool.not_eq_false] at h1
          exact ⟨h1.1, h1.2, by simpa using h2, by simpa using h3⟩
  · rintro ⟨h1, h2, h3, h4⟩
    simp [h1, h2, h3, h4]

@[simp] theorem transitionIsAvailable_iff {r : EvaluationRecord} {a : Action} {user : CurrentUser} :
    transitionIsAvailable r a user = true ↔ transitionBlock r a user = none := by
  simp [transitionIsAvailable]

theorem ensureTransitionAllowed_eq_ok {r : EvaluationRecord} {a : Action} {user : CurrentUser}
    {spec : Transition} :
    ensureTransitionAllowed r a user = .ok spec ↔
      transitionBlock r a user = none ∧ spec = transitions a := by
  unfold ensureTransitionAllowed
  simp only
  split
  next h => simp [h]
  next h => simp [h]
  next h => simp [h, eq_comm]

/-- A seat that is not free to take admits its occupant only. -/
theorem Transition.admits_iff_of_not_claimable {spec : Transition} {r : EvaluationRecord}
    {userId : Nat} {field : SeatField} (hf : spec.assigneeField = some field)
    (hc : spec.claimableIfUnassigned = false) :
    spec.admits r userId = true ↔ r.seat field = some userId := by
  unfold admits
  rw [hf]
  simp only [hc, Bool.and_false, Bool.false_or, decide_eq_true_eq]

/-! ## Who scores, who comes next, who signs -/

/-- The stage and the occupant of the scoring seat. -/
def scorerSeat (r : EvaluationRecord) : UserRole × Option Nat :=
  let field := scorerField r.chain.unitSupervisorUserId r.chain.deputyUserId
  (seatRole field, r.chain.seat field)

/-- The next desk after the HR stage. -/
def ownerAfterHrReview (r : EvaluationRecord) : Nat := r.chain.deputyUserId.getD r.chain.ceoUserId

/-- The seat that answers an objection; `none` is HR. -/
def objectionResolverField (r : EvaluationRecord) : Option ChainSeat :=
  if !r.skipsHrReview then none
  else if r.isManagerPath || r.skipsDeputy then some .ceo
  else some .deputy

/-- Print a filled seat: a new row, or the seat added to its occupant's row. -/
def addSignature (signatories : List Signatory) (seat : ChainSeat) (userId : Nat) : List Signatory :=
  if signatories.any fun row => row.userId = some userId && .hr ∉ row.seats then
    signatories.map fun row =>
      if row.userId = some userId && .hr ∉ row.seats then
        { row with
          seats := row.seats ++ [.chain seat]
          label := row.label ++ " و " ++ seatLabel seat }
      else row
  else signatories ++ [⟨[.chain seat], seatLabel seat, some userId⟩]

/-- The part of the loop for one seat: its signature, and HR's after the scorer's. -/
def signSeat (r : EvaluationRecord) (signatories : List Signatory) (seat : ChainSeat) :
    List Signatory :=
  match r.chain.seat seat with
  | none => signatories
  | some userId =>
    let signed := addSignature signatories seat userId
    if seat = scorerField r.chain.unitSupervisorUserId r.chain.deputyUserId && !r.skipsHrReview then
      signed ++ [⟨[.hr], hrLabel, r.hrUserId⟩]
    else signed

/-- The signature block of the final document. -/
def documentSignatories (r : EvaluationRecord) : List Signatory :=
  seatOrder.foldl (signSeat r) []

end NexaHR
