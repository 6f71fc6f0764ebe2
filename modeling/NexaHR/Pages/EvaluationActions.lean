import NexaHR.Services.Workflow

/-! # The buttons of the detail page

`pages/evaluationActions.ts`: which buttons the page of a record shows. It reads what the API sends of
the record, decides by the user's role and seat, and asks the server nothing.

* `EvaluationStage`, `stageByStatus`: the stage that the API derives from the status.
* `ChainShape`, `Actor`, `ChainActions`: what the page reads, and what it decides.
* `chainActions`: the decision.
* `EvaluationRecord.sent`, `CurrentUser.actor`: the record and the user as the page gets them.
-/

namespace NexaHR

set_option autoImplicit false

/-! ## The stage of the API -/

inductive EvaluationStage
  | supervisorScoring | hrReview | deputyReview | ceoFinal
  deriving DecidableEq, Repr

/-- `_STAGE_BY_STATUS`. -/
def stageByStatus : EvaluationStatus → Option EvaluationStage
  | .draft => some .supervisorScoring
  | .submitted => some .hrReview
  | .hrApproved => some .deputyReview
  | .deputyApproved => some .ceoFinal
  | .finalized => some .ceoFinal
  | .cancelled => none

/-! ## What the page reads -/

/-- `RANK`, with −1 for a role that sits at no stage. -/
def rankOf : UserRole → Int
  | .unitSupervisor => 1
  | .deputy => 2
  | .ceo => 3
  | _ => -1

structure ChainShape where
  status : EvaluationStatus
  stage : Option EvaluationStage
  unitSupervisorUserId : Option Nat
  deputyUserId : Option Nat
  ceoUserId : Nat
  hrUserId : Option Nat
  hrReviewSkipped : Option Bool
  deriving DecidableEq

structure Actor where
  id : Nat
  role : UserRole
  deriving DecidableEq

/-- Where the approval of HR takes the record, for the text of the dialogue. -/
inductive NextDesk
  | deputy | ceo | final
  deriving DecidableEq, Repr

structure ChainActions where
  isManagerPath : Bool
  isCeoOnlyPath : Bool
  skipsDeputy : Bool
  isShieldedHrCase : Bool
  scorerRole : ChainSeat
  scorerUserId : Option Nat
  isEditableScoring : Bool
  hrClosesTheCase : Bool
  canHrApprove : Bool
  canDeputyApprove : Bool
  canCeoFinalize : Bool
  canCeoReturn : Bool
  canRecoverStuckCase : Bool
  canComment : Bool
  hrApprovalMovesTo : NextDesk
  deriving DecidableEq

/-! ## The decision -/

def chainActions (evaluation : ChainShape) (user : Actor) : ChainActions :=
  let isManagerPath := evaluation.unitSupervisorUserId.isNone
  let skipsDeputy := evaluation.deputyUserId.isNone
  let isCeoOnlyPath := isManagerPath && skipsDeputy
  let scorerRole : ChainSeat :=
    if isCeoOnlyPath then .ceo else if isManagerPath then .deputy else .unitSupervisor
  let scorerUserId :=
    if isCeoOnlyPath then some evaluation.ceoUserId
    else if isManagerPath then evaluation.deputyUserId
    else evaluation.unitSupervisorUserId
  let isOpenCase := evaluation.status ≠ .finalized ∧ evaluation.status ≠ .cancelled
  let hrReviewSkipped := evaluation.hrReviewSkipped.getD false
  let isShieldedHrCase := hrReviewSkipped && isOpenCase
  let isCeoSeat := user.role = .ceo && evaluation.ceoUserId = user.id
  let isDeputySeat := user.role = .deputy && evaluation.deputyUserId = some user.id
  let hrMayHandleThisCase := evaluation.hrUserId = none || evaluation.hrUserId = some user.id
  { isManagerPath := isManagerPath
    isCeoOnlyPath := isCeoOnlyPath
    skipsDeputy := skipsDeputy
    isShieldedHrCase := isShieldedHrCase
    scorerRole := scorerRole
    scorerUserId := scorerUserId
    isEditableScoring :=
      evaluation.status = .draft && scorerUserId = some user.id &&
        rankOf (seatRole scorerRole) ≤ rankOf user.role
    hrClosesTheCase := isCeoOnlyPath && !hrReviewSkipped
    canHrApprove := user.role = .hr && evaluation.status = .submitted && hrMayHandleThisCase
    canDeputyApprove :=
      isDeputySeat && evaluation.status = .hrApproved && evaluation.stage = some .deputyReview &&
        !isManagerPath
    canCeoFinalize :=
      isCeoSeat &&
        (evaluation.status = .deputyApproved || (evaluation.status = .hrApproved && skipsDeputy))
    canCeoReturn :=
      isCeoSeat &&
        (evaluation.status = .deputyApproved || (isCeoOnlyPath && evaluation.status = .submitted) ||
          (skipsDeputy && !isCeoOnlyPath && evaluation.status = .hrApproved))
    canRecoverStuckCase :=
      isOpenCase &&
        (if user.role = .hr then !isShieldedHrCase
        else isShieldedHrCase && (isCeoSeat || isDeputySeat))
    canComment :=
      (user.role = .hr && evaluation.status = .submitted && hrMayHandleThisCase) ||
        (isDeputySeat && evaluation.status = .hrApproved) ||
        (isCeoSeat && evaluation.status = .deputyApproved)
    hrApprovalMovesTo :=
      if isCeoOnlyPath && !hrReviewSkipped then .final
      else if isManagerPath || skipsDeputy then .ceo
      else .deputy }

/-- The box to send the record back stands beside every button that answers for the stage. -/
def ChainActions.showsReturnBox (a : ChainActions) : Bool :=
  a.canHrApprove || a.canDeputyApprove || a.canCeoFinalize || a.canCeoReturn

/-! ## What the API sends -/

/-- The fields of `EvaluationDetail` that the page reads. -/
def EvaluationRecord.sent (r : EvaluationRecord) : ChainShape where
  status := r.status
  stage := stageByStatus r.status
  unitSupervisorUserId := r.chain.unitSupervisorUserId
  deputyUserId := r.chain.deputyUserId
  ceoUserId := r.chain.ceoUserId
  hrUserId := r.hrUserId
  hrReviewSkipped := some r.hrReviewSkipped

def CurrentUser.actor (user : CurrentUser) : Actor := ⟨user.id, user.role⟩

/-- The buttons of the record for the user. -/
def buttons (r : EvaluationRecord) (user : CurrentUser) : ChainActions := chainActions r.sent user.actor

end NexaHR
